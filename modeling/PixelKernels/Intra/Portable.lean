/-
  PixelKernels.Intra.Portable
  ───────────────────────────
  **INTRA PREDICTION, ONE SAMPLE AFTER ANOTHER.**

  Each kernel turns a border into a block of side `n`.  With `A` the row
  above, `L` the left column and `C` the corner:

      dc…     every sample is one rounded mean
      v, h    columns repeat A, rows repeat L
      tm      A + L - C, clipped
      d45     three-tap averages of A along the falling diagonals, the last
              sample of A once they run out
      d117    two rows of averages of C and A; every later row is the row two
              above it, one column to the right, behind a new first sample
      d135    one such row; every later row is the row above it, one column
              to the right, behind a new first sample

  A d117 or d135 block is thus a cascade: past its first rows only the first
  column is computed, and all else is copied.
-/
import PixelKernels.Intra.Edge
import PixelKernels.Painting
import PixelKernels.Rounding

namespace PixelKernels.Intra.Portable

variable {s : Storage}

/-! ## §1. Flat blocks. -/

/-- A block of one value. -/
def flat (n : Nat) (v : Sample s) : Block s := List.replicate n (List.replicate n v)

/-- Sum of a run of samples. -/
def sumSamples (samples : List (Sample s)) : Outcome Nat := sumUInt32 (samples.map BitVec.toNat)

/-- Mean of `n` samples above and `n` to the left. -/
def dc (n : Nat) (edge : IntraEdge s) : Outcome (Block s) := do
  let above ← sumSamples (← edge.aboveRow n)
  let left ← sumSamples (← edge.leftColumn n)
  let mean ← round2 (← asUInt32 (above + left)) (← ulog2 (2 * n))
  pure (flat n (← Sample.ofNat s mean))

/-- Mean of `n` samples to the left. -/
def dcLeft (n : Nat) (edge : IntraEdge s) : Outcome (Block s) := do
  let mean ← round2 (← sumSamples (← edge.leftColumn n)) (← ulog2 n)
  pure (flat n (← Sample.ofNat s mean))

/-- Mean of `n` samples above. -/
def dcTop (n : Nat) (edge : IntraEdge s) : Outcome (Block s) := do
  let mean ← round2 (← sumSamples (← edge.aboveRow n)) (← ulog2 n)
  pure (flat n (← Sample.ofNat s mean))

/-- The middle of the range. -/
def dc128 (n : Nat) (max : Nat) : Outcome (Block s) := do
  let range ← SampleRange.ofMax s max
  pure (flat n range.mid)

/-! ## §2. Straight blocks. -/

/-- Every row is the row above the block. -/
def v (n : Nat) (edge : IntraEdge s) : Outcome (Block s) := do
  pure (List.replicate n (← edge.aboveRow n))

/-- Every column is the column left of the block. -/
def h (n : Nat) (edge : IntraEdge s) : Outcome (Block s) := do
  pure ((← edge.leftColumn n).map (List.replicate n))

/-- Above plus left minus corner, clipped. -/
def tm (n : Nat) (edge : IntraEdge s) (max : Nat) : Outcome (Block s) := do
  let range ← SampleRange.ofMax s max
  let above ← edge.aboveRow n
  let left ← edge.leftColumn n
  pure (left.map fun l => above.map fun a =>
    range.clip ((a.toNat : Int) + ((l.toNat : Int) - (edge.topLeft.toNat : Int))))

/-! ## §3. Slanted blocks. -/

/-- Two-tap average, stored. -/
def tap2 (x y : Nat) : Outcome (Sample s) := do Sample.ofNat s (← avg2 x y)

/-- Three-tap average, stored. -/
def tap3 (x y z : Nat) : Outcome (Sample s) := do Sample.ofNat s (← avg3 x y z)

/-- The three-tap averages of all neighbouring triples of a line. -/
def taps3 : List Nat → Outcome (List (Sample s))
  | x :: y :: z :: rest => do
      let first ← tap3 x y z
      let others ← taps3 (y :: z :: rest)
      pure (first :: others)
  | _ => pure []

/-- The two-tap averages of all neighbouring pairs of a line. -/
def taps2 : List Nat → Outcome (List (Sample s))
  | x :: y :: rest => do
      let first ← tap2 x y
      let others ← taps2 (y :: rest)
      pure (first :: others)
  | _ => pure []

/-- Cell of a d45 block: the average around `r + c + 1`, or the last sample past the end. -/
def d45Cell (n : Nat) (above : Array (Sample s)) (r c : Nat) : Outcome (Sample s) := do
  if r + c + 2 < 2 * n then
    tap3 (← elementAt above (r + c)).toNat (← elementAt above (r + c + 1)).toNat
      (← elementAt above (r + c + 2)).toNat
  else elementAt above (2 * n - 1)

/-- Down and to the left from the above row. -/
def d45 (n : Nat) (edge : IntraEdge s) : Outcome (Block s) := do
  let above := (← edge.aboveRow (2 * n)).toArray
  (List.range n).mapM fun r => (List.range n).mapM fun c => d45Cell n above r c

/-- Rows that each repeat the one before, one column to the right, behind a new first sample. -/
def cascade (row : List (Sample s)) : List (Sample s) → Block s
  | [] => []
  | first :: rest =>
      let next := first :: row.dropLast
      next :: cascade next rest

/-- Rows that each repeat the one two before, one column to the right, behind a new first sample. -/
def cascade2 (older newer : List (Sample s)) : List (Sample s) → Block s
  | [] => []
  | first :: rest =>
      let next := first :: older.dropLast
      next :: cascade2 newer next rest

/-- The corner and the samples above it to the right, as one line. -/
def topLine (n : Nat) (edge : IntraEdge s) : Outcome (List Nat) := do
  pure (edge.topLeft.toNat :: (← edge.aboveRow n).map BitVec.toNat)

/-- The corner and the samples below it, as one line. -/
def sideLine (n : Nat) (edge : IntraEdge s) : Outcome (List Nat) := do
  pure (edge.topLeft.toNat :: (← edge.leftColumn n).map BitVec.toNat)

/-- Average around the corner, between the first samples of the two lines. -/
def cornerTap (top side : List Nat) : Outcome (Sample s) := do
  match top, side with
  | corner :: a :: _, _ :: l :: _ => tap3 l corner a
  | _, _ => .error .index

/-- Down and to the right, two rows per column. -/
def d117 (n : Nat) (edge : IntraEdge s) : Outcome (Block s) := do
  let top ← topLine n edge
  let side ← sideLine n edge
  let first ← taps2 top
  let corner ← cornerTap top side
  let second := corner :: (← taps3 top)
  -- the first column leaves out the last sample to the left
  let column ← taps3 (side.take n)
  pure (first :: second :: cascade2 first second column)

/-- Down and to the right along the diagonal. -/
def d135 (n : Nat) (edge : IntraEdge s) : Outcome (Block s) := do
  let top ← topLine n edge
  let side ← sideLine n edge
  let corner ← cornerTap top side
  let first := corner :: (← taps3 top)
  let column ← taps3 side
  pure (first :: cascade first column)

/-! ## §4. All kernels. -/

/-- The block that a kernel predicts. -/
def block (kernel : IntraKernel) (n : Nat) (edge : IntraEdge s) (max : Nat) : Outcome (Block s) :=
  match kernel with
  | .dc => dc n edge
  | .dcLeft => dcLeft n edge
  | .dcTop => dcTop n edge
  | .dc128 => dc128 n max
  | .v => v n edge
  | .h => h n edge
  | .tm => tm n edge max
  | .d45 => d45 n edge
  | .d117 => d117 n edge
  | .d135 => d135 n edge

/-- Predicts a block of side `n` into a plane. -/
def predict (kernel : IntraKernel) (n : Nat) (destination : Plane s) (edge : IntraEdge s)
    (max : Nat) : Painting s :=
  destination.paintOutcome do
    destination.assertFits n n
    edge.assertHolds kernel n
    block kernel n edge max

end PixelKernels.Intra.Portable
