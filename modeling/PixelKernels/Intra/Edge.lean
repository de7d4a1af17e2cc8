/-
  PixelKernels.Intra.Edge
  ───────────────────────
  **THE BORDER THAT A BLOCK IS PREDICTED FROM.**

  A border is the row of samples above the block, the column to its left
  and the corner between them, with a note of which of the two neighbours
  really exist.  The note only chooses among the DC kernels; every other
  mode reads the samples whatever the note says, so a caller fills in
  missing neighbours first (`EdgeBuffer`).

  `EdgeBuffer.build` does that in cells that are the same for all sizes: a
  missing row above reads as one less than the middle of the range, a missing
  left column as one more, and a neighbour that is too short repeats its last
  sample.
-/
import PixelKernels.Catalog.Lookup
import PixelKernels.Painting
import PixelKernels.Sample

namespace PixelKernels

/-! ## §1. Borders. -/

/-- The border of a block. -/
structure IntraEdge (s : Storage) where
  /-- The corner sample. -/
  topLeft : Sample s
  /-- Samples above the block, from its first column on. -/
  above : Array (Sample s)
  /-- Samples left of the block, from its first row down. -/
  left : Array (Sample s)
  /-- Whether there is a neighbour above. -/
  haveAbove : Bool := true
  /-- Whether there is a neighbour to the left. -/
  haveLeft : Bool := true
  deriving DecidableEq

namespace IntraEdge

variable {s : Storage}

/-- The kernel that realises a mode for this border. -/
def kernelFor (edge : IntraEdge s) : IntraMode → IntraKernel
  | .dc =>
      match edge.haveAbove, edge.haveLeft with
      | true, true => .dc
      | true, false => .dcTop
      | false, true => .dcLeft
      | false, false => .dc128
  | mode => mode.kernel

/-- Refuses a border without every sample that the kernel reads at this size. -/
def check (edge : IntraEdge s) (kernel : IntraKernel) (block : BlockSize) : Except Error Unit := do
  (KernelKind.intra kernel).check block
  let above := kernel.aboveLength block.width
  let left := kernel.leftLength block.width
  if edge.above.size < above then throw (.bufferTooSmall above edge.above.size)
  if edge.left.size < left then throw (.bufferTooSmall left edge.left.size)

/-- The kernels' own check of the lengths that they read. -/
def assertHolds (edge : IntraEdge s) (kernel : IntraKernel) (n : Nat) : Outcome Unit := do
  Outcome.require (kernel.aboveLength n ≤ edge.above.size) .assertion
  Outcome.require (kernel.leftLength n ≤ edge.left.size) .assertion

/-- The first `n` samples above. -/
def aboveRow (edge : IntraEdge s) (n : Nat) : Outcome (List (Sample s)) := slice edge.above 0 n

/-- The first `n` samples to the left. -/
def leftColumn (edge : IntraEdge s) (n : Nat) : Outcome (List (Sample s)) := slice edge.left 0 n

/-- The border with its row and its column exchanged. -/
def transpose (edge : IntraEdge s) : IntraEdge s :=
  ⟨edge.topLeft, edge.left, edge.above, edge.haveLeft, edge.haveAbove⟩

end IntraEdge

/-! ## §2. Borders made complete. -/

/-- A border made from the neighbours that exist, in cells with room for the largest block. -/
structure EdgeBuffer (s : Storage) where
  /-- The corner sample. -/
  topLeft : Sample s
  /-- Cells for the samples above; a block uses twice its side of them. -/
  above : Vector (Sample s) (2 * maxIntraSide)
  /-- Cells for the samples to the left; a block uses its side of them. -/
  left : Vector (Sample s) maxIntraSide
  /-- Side of the block. -/
  side : Nat
  side_le : side ≤ maxIntraSide
  /-- Whether there is a neighbour above. -/
  haveAbove : Bool
  /-- Whether there is a neighbour to the left. -/
  haveLeft : Bool

/-- The cells with values stored one after another from position `start` on; all of these
positions must be there. -/
def storeAt {α : Type} {m : Nat} (cells : Vector α m) (start : Nat) (values : List α) :
    Outcome (Vector α m) :=
  if start + values.length ≤ m then .ok ⟨overwrite cells.toArray start values, by simp⟩
  else .error .index

/-- The cells with a neighbour laid over the first `n` of them: as much of it as fits, and its last
sample that did in all cells that are left.  A neighbour without samples changes nothing. -/
def lay {α : Type} {m : Nat} (cells : Vector α m) (n : Nat) (neighbour : Array α) :
    Outcome (Vector α m) := do
  if neighbour.isEmpty then pure cells
  else
    let count := min neighbour.size n
    let copied ← storeAt cells 0 (← slice neighbour 0 count)
    let last ← elementAt neighbour (count - 1)
    storeAt copied count (List.replicate (n - count) last)

namespace EdgeBuffer

variable {s : Storage}

/-- The border, as a block of its side reads it. -/
def edge (border : EdgeBuffer s) : IntraEdge s where
  topLeft := border.topLeft
  above := border.above.toArray.take (2 * border.side)
  left := border.left.toArray.take border.side
  haveAbove := border.haveAbove
  haveLeft := border.haveLeft

/-- Completes a border; an absent neighbour and an empty one are the same. -/
def build (depth : Depth) (block : BlockSize) (above left : Option (Array (Sample s)))
    (topLeft : Sample s) : Outcome (EdgeBuffer s) :=
  if square : (KernelKind.intra .dc).supports block = true then do
    Outcome.require (s.stores depth) (.error (.storageMismatch depth))
    let n := block.width
    let belowMid ← Sample.ofNat s (depth.mid - 1)
    let aboveMid ← Sample.ofNat s (depth.mid + 1)
    let row := above.getD #[]
    let column := left.getD #[]
    let aboveCells ← lay (Vector.replicate _ belowMid) (2 * n) row
    let leftCells ← lay (Vector.replicate _ aboveMid) n column
    pure {
      -- the corner is the caller's only if both neighbours are there
      topLeft := if row.isEmpty then belowMid else if column.isEmpty then aboveMid else topLeft
      above := aboveCells
      left := leftCells
      side := n
      side_le := (KernelKind.intra_supports square).2.2
      haveAbove := !row.isEmpty
      haveLeft := !column.isEmpty }
  else .error (.error (.unsupportedGeometry (.intra .dc) block))

end EdgeBuffer

end PixelKernels
