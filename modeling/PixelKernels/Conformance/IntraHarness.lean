/-
  PixelKernels.Conformance.IntraHarness
  ─────────────────────────────────────
  **TRYING INTRA KERNELS, GUARDS INCLUDED.**

  A harness for one block size and depth owns a complete border.  A scenario
  fills it; each candidate then predicts into a buffer that surrounds the
  block with guard samples, and every cell of that buffer is compared: the
  block with the reference predictor, the guards with what they were.
-/
import PixelKernels.Conformance.Draws
import PixelKernels.Conformance.Reference
import PixelKernels.Conformance.Report
import PixelKernels.Dispatch.Implementation

namespace PixelKernels

/-! ## §1. Scenarios. -/

/-- How a border is filled. -/
inductive IntraScenario where
  /-- Random samples. -/
  | random
  /-- All zero. -/
  | zero
  /-- All in the middle of the range. -/
  | mid
  /-- All at the maximum. -/
  | max
  /-- Above at the maximum, left and corner zero: tm clips high. -/
  | aboveMaxLeftZero
  /-- Above zero, left and corner at the maximum: tm clips low. -/
  | aboveZeroLeftMax
  /-- Maximum and zero in turns along each side. -/
  | alternating
  deriving Repr, DecidableEq, Inhabited

namespace IntraScenario

/-- Every scenario, in the order in which they are run. -/
def all : List IntraScenario :=
  [.random, .zero, .mid, .max, .aboveMaxLeftZero, .aboveZeroLeftMax, .alternating]

/-- The text of a scenario. -/
def name : IntraScenario → String
  | .random => "random"
  | .zero => "zero"
  | .mid => "mid"
  | .max => "max"
  | .aboveMaxLeftZero => "above_max_left_zero"
  | .aboveZeroLeftMax => "above_zero_left_max"
  | .alternating => "alternating"

/-- Whether the border is filled with random samples. -/
def isRandom (scenario : IntraScenario) : Bool := scenario == .random

end IntraScenario

/-! ## §2. The harness and its border. -/

/-- What is tried, and how much of the stream has been used. -/
structure IntraHarness (s : Storage) where
  block : BlockSize
  depth : Depth
  /-- The cell stores the depth. -/
  stored : depth.storage = s
  /-- The block is one that can be predicted. -/
  square : (KernelKind.intra .dc).supports block = true
  draws : Draws depth
  /-- Number of samples drawn so far. -/
  drawn : Nat := 0

namespace IntraHarness

variable {s : Storage}

/-- A harness for a block size, if the cell stores the depth and the block can be predicted. -/
def make (s : Storage) (block : BlockSize) (depth : Depth) (draws : Draws depth) :
    Except Error (IntraHarness s) :=
  if stored : depth.storage = s then
    if square : (KernelKind.intra .dc).supports block = true then
      .ok { block, depth, stored, square, draws }
    else .error (.unsupportedGeometry (.intra .dc) block)
  else .error (.storageMismatch depth)

/-- Side of the block. -/
def side (harness : IntraHarness s) : Nat := harness.block.width

/-- A border with one value on each side. -/
def constantBorder (harness : IntraHarness s) (above left corner : Nat) :
    Outcome (IntraEdge s) := do
  let above ← Sample.ofNat s above
  let left ← Sample.ofNat s left
  let corner ← Sample.ofNat s corner
  pure {
    topLeft := corner
    above := Array.replicate (2 * harness.side) above
    left := Array.replicate harness.side left }

/-- A border of the next samples of the stream: above, then left, then the corner. -/
def randomBorder (harness : IntraHarness s) : Outcome (IntraEdge s) := do
  let n := harness.side
  let above ← harness.draws.take s harness.drawn (2 * n)
  let left ← harness.draws.take s (harness.drawn + 2 * n) n
  let corner ← Sample.ofNat s (harness.draws (harness.drawn + 3 * n)).val
  pure { topLeft := corner, above, left }

/-- A border that alternates between the ends of the range. -/
def alternatingBorder (harness : IntraHarness s) : Outcome (IntraEdge s) := do
  let top ← Sample.ofNat s harness.depth.max
  let middle ← Sample.ofNat s harness.depth.mid
  pure {
    topLeft := middle
    above := Array.ofFn fun i : Fin (2 * harness.side) => if i.val % 2 = 0 then top else 0
    left := Array.ofFn fun i : Fin harness.side => if i.val % 2 = 0 then 0 else top }

/-- Fills the border for a scenario; the random scenario uses up the stream. -/
def fill (harness : IntraHarness s) (scenario : IntraScenario) :
    Outcome (IntraHarness s × IntraEdge s) := do
  let max := harness.depth.max
  let mid := harness.depth.mid
  match scenario with
  | .random =>
      pure ({ harness with drawn := harness.drawn + (3 * harness.side + 1) },
        ← harness.randomBorder)
  | .zero => pure (harness, ← harness.constantBorder 0 0 0)
  | .mid => pure (harness, ← harness.constantBorder mid mid mid)
  | .max => pure (harness, ← harness.constantBorder max max max)
  | .aboveMaxLeftZero => pure (harness, ← harness.constantBorder max 0 0)
  | .aboveZeroLeftMax => pure (harness, ← harness.constantBorder 0 max max)
  | .alternating => pure (harness, ← harness.alternatingBorder)

/-! ## §3. The guarded destination. -/

/-- Columns of guard samples on each side of the block. -/
def guardWidth : Nat := 4

/-- Stride of the guarded buffer. -/
def stride (harness : IntraHarness s) : Nat := harness.side + 2 * guardWidth

/-- The value of the guards. -/
def sentinel (harness : IntraHarness s) : Outcome (Sample s) :=
  Sample.ofNat s (harness.depth.max / 3)

/-- Number of cells of the guarded buffer: the block's rows, one above and one below. -/
def cellCount (harness : IntraHarness s) : Nat := harness.stride * (harness.side + 2)

/-- The destination before a candidate runs: guards everywhere. -/
def guarded (harness : IntraHarness s) (sentinel : Sample s) : Plane s where
  data := Array.replicate harness.cellCount sentinel
  base := harness.stride + guardWidth
  stride := harness.stride

/-- What cell `i` of the destination ought to hold, given the guards and the block that is
expected. -/
def wanted (harness : IntraHarness s) (sentinel : Sample s) (expected : Array Nat) (i : Nat) :
    Outcome Nat :=
  let n := harness.side
  let y := i / harness.stride
  let x := i % harness.stride
  if 1 ≤ y ∧ y ≤ n ∧ guardWidth ≤ x ∧ x < guardWidth + n then
    elementAt expected ((y - 1) * n + (x - guardWidth))
  else pure sentinel.toNat

/-- The label of cell `i`: its row and column relative to the block. -/
def cellLabel (harness : IntraHarness s) (scenario : IntraScenario) (i : Nat) : String :=
  let row : Int := (i / harness.stride : Nat) - 1
  let column : Int := (i % harness.stride : Nat) - (guardWidth : Int)
  scenario.name ++ s!" row {row} col {column}"

/-! ## §4. Trials. -/

/-- What the candidates of one run are shown, and what is expected of them. -/
structure Setting (s : Storage) where
  key : KernelKey
  scenario : IntraScenario
  edge : IntraEdge s
  /-- The value of the guards. -/
  sentinel : Sample s
  /-- The block that the reference predicts, in raster order. -/
  expected : List Nat

/-- The trials of one candidate: one for each cell of the destination. -/
def trials (harness : IntraHarness s) (setting : Setting s) (candidate : Implementation s) :
    List (Outcome Report.Trial) :=
  let { key, scenario, edge, sentinel, expected } := setting
  match candidate.kernel with
  | .intra run =>
      let painting := run (harness.guarded sentinel) edge harness.depth.max
      match painting.outcome with
      | .error fault => [.error fault]
      | .ok () =>
          -- guards are compared like cells, so a stray write is a failed trial
          painting.buffer.toList.mapIdx fun i got => do
            let want ← harness.wanted sentinel expected.toArray i
            pure (.equal key candidate.name (harness.cellLabel scenario i) want got.toNat)
  | _ => []

/-- Fills the border and predicts the block that is expected of a kernel. -/
def present (harness : IntraHarness s) (kernel : IntraKernel) (scenario : IntraScenario) :
    Outcome (IntraHarness s × Setting s) := do
  let (next, edge) ← harness.fill scenario
  let key : KernelKey := ⟨⟨.intra kernel, harness.block⟩, harness.depth⟩
  let sentinel ← harness.sentinel
  let expected ← Reference.predict kernel harness.side edge harness.depth.max
  pure (next, { key, scenario, edge, sentinel, expected })

/-- Presents a scenario to every candidate.  A fault ends the run; what was recorded before it
stays. -/
def run (harness : IntraHarness s) (kernel : IntraKernel) (candidates : List (Implementation s))
    (scenario : IntraScenario) (report : Report) : IntraHarness s × Report × Outcome Unit :=
  match harness.present kernel scenario with
  | .error fault => (harness, report, .error fault)
  | .ok (next, setting) => (next, report.recordAll (candidates.flatMap (harness.trials setting)))

end IntraHarness

end PixelKernels
