/-
  PixelKernels.Kernels
  ────────────────────
  **THE ENTRY POINTS.**

  A bundle holds one table per depth, all selected at one level.  Its entry
  points check everything that a kernel relies on before the kernel is
  called, in this order:

      the depth is stored in the caller's cell
      the size is one of the kind's (for intra: the border is complete)
      the block lies inside every plane
      the second predictor is long enough
      no sample that the kernel reads is above the maximum of the depth

  The four-reference entry point checks the range of the source before it
  looks at the references, and of each reference before the next.

  Each entry point is its checks (`admit…`), which answer with the kernel to
  run, followed by that kernel; so what a kernel is called with is exactly
  what its checks let through.
-/
import PixelKernels.Cpu.Level
import PixelKernels.Dispatch.Defaults

namespace PixelKernels

/-- One table per depth, selected at one level. -/
structure Kernels where
  level : CpuLevel
  eight : Table .byte
  ten : Table .word
  twelve : Table .word

namespace Kernels

/-! ## §1. Bundles. -/

/-- The default kernels of one depth, selected for a processor. -/
def buildTable (s : Storage) (depth : Depth) (processor : Processor) : Outcome (Table s) := do
  (← Outcome.ofRefusal (Registry.withDefaults processor.summons s depth)).build processor.flags

/-- A bundle of the default kernels, selected for a processor. -/
def forProcessor (level : CpuLevel) (processor : Processor) : Outcome Kernels := do
  pure {
    level
    eight := ← buildTable .byte .eight processor
    ten := ← buildTable .word .ten processor
    twelve := ← buildTable .word .twelve processor }

/-- The bundle of a level on a processor. -/
def atLevel (processor : Processor) (level : CpuLevel) : Outcome Kernels :=
  forProcessor level (processor.upTo level)

/-- The table of a depth, whose samples must be stored in the cell. -/
def table (kernels : Kernels) : (s : Storage) → (depth : Depth) → Outcome (Table s)
  | .byte, .eight => .ok kernels.eight
  | .word, .ten => .ok kernels.ten
  | .word, .twelve => .ok kernels.twelve
  | s, depth => .error (.violation (.wrongStorage depth s))

/-- Every key of every depth, shallowest first, and the name of its implementation. -/
def describe (kernels : Kernels) : List (KernelKey × String) :=
  kernels.eight.describe ++ kernels.ten.describe ++ kernels.twelve.describe

/-! ## §2. Checks. -/

variable {s : Storage}

/-- Requires that a plane holds the block. -/
def requireHolds (role : Role) (block : BlockSize) (plane : Plane s) : Outcome Unit := do
  Outcome.require (← plane.fits block.width block.height)
    (.violation (.planeTooSmall role plane.base plane.stride plane.data.size block))

/-- Requires that no sample is above the maximum of the depth; the first that is, is named. -/
def requireInRange (role : Role) (depth : Depth) (samples : List (Sample s)) : Outcome Unit :=
  match samples.find? fun v => depth.max < v.toNat with
  | some v => .error (.violation (.sampleTooLarge role v.toNat depth))
  | none => .ok ()

/-- Requires that the samples of a block are in range, row by row. -/
def requireBlockInRange (role : Role) (depth : Depth) (block : BlockSize) (plane : Plane s) :
    Outcome Unit :=
  (List.range block.height).forM fun y => do
    requireInRange role depth (← plane.row y block.width)

/-- Requires that a second predictor covers the block. -/
def requireCovers (block : BlockSize) (second : Array (Sample s)) : Outcome Unit :=
  Outcome.require (block.area ≤ second.size)
    (.violation (.secondPredictorTooShort second.size block))

/-- Requires that source and reference hold the block, and then that both are in range. -/
def requirePair (depth : Depth) (block : BlockSize) (source reference : Plane s) :
    Outcome Unit := do
  requireHolds .source block source
  requireHolds .reference block reference
  requireBlockInRange .source depth block source
  requireBlockInRange .reference depth block reference

/-! ## §3. Differences. -/

/-- Everything that is checked before a sum of differences, and the kernel that may then run. -/
def admitSad (kernels : Kernels) (depth : Depth) (block : BlockSize)
    (source reference : Plane s) : Outcome (SadFn s) := do
  let run ← (← kernels.table s depth).sadAt block
  requirePair depth block source reference
  pure run

/-- Sum of absolute differences of a block. -/
def sad (kernels : Kernels) (depth : Depth) (block : BlockSize) (source reference : Plane s) :
    Outcome Nat := do
  (← kernels.admitSad depth block source reference) source reference

/-- Everything that is checked before a bounded sum, and the kernel that may then run. -/
def admitSadBounded (kernels : Kernels) (depth : Depth) (block : BlockSize)
    (source reference : Plane s) : Outcome (SadBoundedFn s) := do
  let run ← (← kernels.table s depth).sadBoundedAt block
  requirePair depth block source reference
  pure run

/-- Sum of absolute differences, which may be cut short once it is above the bound. -/
def sadBounded (kernels : Kernels) (depth : Depth) (block : BlockSize)
    (source reference : Plane s) (bound : Nat) : Outcome Nat := do
  (← kernels.admitSadBounded depth block source reference) source reference bound

/-- Everything that is checked before sums against four references, and the kernel that may then
run. -/
def admitSadX4 (kernels : Kernels) (depth : Depth) (block : BlockSize) (source : Plane s)
    (references : Vector (Plane s) 4) : Outcome (SadX4Fn s) := do
  let run ← (← kernels.table s depth).sadX4At block
  requireHolds .source block source
  requireBlockInRange .source depth block source
  references.forM fun reference => do
    requireHolds .reference block reference
    requireBlockInRange .reference depth block reference
  pure run

/-- Sums of absolute differences against four references. -/
def sadX4 (kernels : Kernels) (depth : Depth) (block : BlockSize) (source : Plane s)
    (references : Vector (Plane s) 4) : Outcome (Vector Nat 4) := do
  (← kernels.admitSadX4 depth block source references) source references

/-- Everything that is checked before a sum against an average, and the kernel that may then run. -/
def admitSadAvg (kernels : Kernels) (depth : Depth) (block : BlockSize)
    (source reference : Plane s) (second : Array (Sample s)) : Outcome (SadAvgFn s) := do
  let run ← (← kernels.table s depth).sadAvgAt block
  requireHolds .source block source
  requireHolds .reference block reference
  requireCovers block second
  requireBlockInRange .source depth block source
  requireBlockInRange .reference depth block reference
  requireInRange .secondPredictor depth (← slice second 0 block.area)
  pure run

/-- Sum of absolute differences against the average of a reference and a second predictor. -/
def sadAvg (kernels : Kernels) (depth : Depth) (block : BlockSize) (source reference : Plane s)
    (second : Array (Sample s)) : Outcome Nat := do
  (← kernels.admitSadAvg depth block source reference second) source reference second

/-! ## §4. Prediction. -/

/-- Requires that the samples which a kernel reads of a border are in range. -/
def requireEdgeInRange (depth : Depth) (kernel : IntraKernel) (n : Nat) (edge : IntraEdge s) :
    Outcome Unit := do
  if kernel.readsTopLeft then requireInRange .topLeft depth [edge.topLeft]
  requireInRange .aboveEdge depth (← edge.aboveRow (kernel.aboveLength n))
  requireInRange .leftEdge depth (← edge.leftColumn (kernel.leftLength n))

/-- Everything that is checked before a prediction, and the kernel that may then run with the maximum
that it is told. -/
def admitPrediction (kernels : Kernels) (depth : Depth) (block : BlockSize) (mode : IntraMode)
    (destination : Plane s) (edge : IntraEdge s) : Outcome (IntraFn s × Nat) := do
  let table ← kernels.table s depth
  let kernel := edge.kernelFor mode
  match edge.check kernel block with
  | .error cause => throw (.violation (.predictionRefused mode block cause))
  | .ok () =>
      Outcome.require (← destination.fits block.width block.height)
        (.violation (.destinationTooSmall block))
      requireEdgeInRange depth kernel block.width edge
      pure (← table.intraAt kernel block, table.max)

/-- Predicts a block of the destination from its border. -/
def predictIntra (kernels : Kernels) (depth : Depth) (block : BlockSize) (mode : IntraMode)
    (destination : Plane s) (edge : IntraEdge s) : Painting s :=
  -- nothing is written before everything is checked
  match kernels.admitPrediction depth block mode destination edge with
  | .ok (run, max) => run destination edge max
  | .error fault => .refused destination.data fault

/-- A buffer of its own for a block, packed. -/
def freshBlock (s : Storage) (block : BlockSize) : Plane s :=
  ⟨Array.replicate block.area 0, 0, block.width⟩

/-- Predicts a block on its own, row after row. -/
def predictAlone (kernels : Kernels) (depth : Depth) (block : BlockSize) (mode : IntraMode)
    (edge : IntraEdge s) : Painting s :=
  kernels.predictIntra depth block mode (freshBlock s block) edge

end Kernels

end PixelKernels
