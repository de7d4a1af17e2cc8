/-
  PixelKernels.Conformance.SadHarness
  ───────────────────────────────────
  **TRYING DIFFERENCE KERNELS ON EVERY LAYOUT.**

  A harness for one block size and depth owns a source, four references and
  a second predictor.  A scenario fills them and lays views over them: short
  and odd strides, a shifted source, references that run upwards, references
  packed tightly.  Each candidate is run on the views and compared with the
  reference cost, which is always taken over the loose layout: packing must
  not change it.

      source strides of whole 32-sample steps, references of twice the width

  A bounded kernel is tried at bounds below, at and above the exact cost; it
  must be exact up to the bound and must not stay below the bound past it.
-/
import PixelKernels.Conformance.Draws
import PixelKernels.Conformance.Reference
import PixelKernels.Conformance.Report
import PixelKernels.Dispatch.Implementation

namespace PixelKernels

/-! ## §1. Scenarios. -/

/-- How buffers are filled and views laid. -/
inductive SadScenario where
  /-- Random samples. -/
  | random
  /-- Source all zero, references all at the maximum. -/
  | maxRef
  /-- Source all at the maximum, references all zero. -/
  | maxSrc
  /-- Reference stride halved. -/
  | shortRef
  /-- Reference stride one less than usual. -/
  | unalignedRef
  /-- Source stride halved. -/
  | shortSrc
  /-- Source moved by one block width. -/
  | srcOffsetByWidth
  /-- References packed to the width of the block. -/
  | tightRef
  /-- Reference rows from the bottom up. -/
  | negativeStride
  /-- A checkerboard in the source, its inverse in the references. -/
  | alternating
  deriving Repr, DecidableEq, Inhabited

namespace SadScenario

/-- Every scenario, in the order in which they are run. -/
def all : List SadScenario :=
  [.random, .maxRef, .maxSrc, .shortRef, .unalignedRef, .shortSrc, .srcOffsetByWidth,
    .tightRef, .negativeStride, .alternating]

/-- The text of a scenario. -/
def name : SadScenario → String
  | .random => "random"
  | .maxRef => "max_ref"
  | .maxSrc => "max_src"
  | .shortRef => "short_ref"
  | .unalignedRef => "unaligned_ref"
  | .shortSrc => "short_src"
  | .srcOffsetByWidth => "src_offset_by_width"
  | .tightRef => "tight_ref"
  | .negativeStride => "negative_stride"
  | .alternating => "alternating"

/-- Whether the buffers are filled with random samples. -/
def isRandom : SadScenario → Bool
  | .maxRef | .maxSrc | .alternating => false
  | _ => true

end SadScenario

/-! ## §2. The harness and its buffers. -/

/-- What is tried, and how much of the stream has been used. -/
structure SadHarness (s : Storage) where
  block : BlockSize
  depth : Depth
  /-- The cell stores the depth. -/
  stored : depth.storage = s
  draws : Draws depth
  /-- Number of samples drawn so far. -/
  drawn : Nat := 0

/-- The filled buffers of a harness. -/
structure SadBuffers (s : Storage) where
  source : Array (Sample s)
  references : Array (Sample s)
  second : Array (Sample s)

namespace SadHarness

variable {s : Storage}

/-- A harness for a block size, if the cell stores the depth. -/
def make (s : Storage) (block : BlockSize) (depth : Depth) (draws : Draws depth) :
    Except Error (SadHarness s) :=
  if stored : depth.storage = s then .ok { block, depth, stored, draws }
  else .error (.storageMismatch depth)

/-- Usual stride of the source: the width in whole steps of 32 samples. -/
def sourceStride (harness : SadHarness s) : Nat := (harness.block.width + 31) / 32 * 32

/-- Usual stride of the references: twice the width. -/
def referenceStride (harness : SadHarness s) : Nat := 2 * harness.block.width

/-- Samples between the starts of two references. -/
def referenceStep (harness : SadHarness s) : Nat := harness.referenceStride * harness.block.height

/-- Number of samples of the source. -/
def sourceSize (harness : SadHarness s) : Nat :=
  harness.sourceStride * harness.block.height + harness.block.width

/-- Number of samples of the references together. -/
def referencesSize (harness : SadHarness s) : Nat := 4 * 2 * harness.block.area

/-- Whether a cell of a checkerboard with rows of this length is set. -/
def isOn (i stride : Nat) : Bool := (i % stride + i / stride) % 2 == 1

/-- Buffers filled with the samples of the stream from the first unused one on. -/
def randomBuffers (harness : SadHarness s) : Outcome (SadBuffers s) := do
  let start := harness.drawn
  let source ← harness.draws.take s start harness.sourceSize
  let references ← harness.draws.take s (start + harness.sourceSize) harness.referencesSize
  let second ← harness.draws.take s (start + harness.sourceSize + harness.referencesSize)
    harness.block.area
  pure ⟨source, references, second⟩

/-- Buffers of two values. -/
def constantBuffers (harness : SadHarness s) (source references : Nat) :
    Outcome (SadBuffers s) := do
  let source ← Sample.ofNat s source
  let references ← Sample.ofNat s references
  pure {
    source := Array.replicate harness.sourceSize source
    references := Array.replicate harness.referencesSize references
    second := Array.replicate harness.block.area references }

/-- A board of these dimensions, with one sample where it is set and another where it is not. -/
def checkerboard (size stride : Nat) (on off : Sample s) : Array (Sample s) :=
  Array.ofFn fun i : Fin size => if isOn i.val stride then on else off

/-- A checkerboard in the source and its inverse in the others. -/
def checkerBuffers (harness : SadHarness s) : Outcome (SadBuffers s) := do
  let top ← Sample.ofNat s harness.depth.max
  pure {
    source := checkerboard harness.sourceSize harness.sourceStride top 0
    references := checkerboard harness.referencesSize harness.referenceStride 0 top
    second := checkerboard harness.block.area harness.block.width 0 top }

/-- Fills the buffers for a scenario; random scenarios use up the stream. -/
def fill (harness : SadHarness s) (scenario : SadScenario) :
    Outcome (SadHarness s × SadBuffers s) := do
  match scenario with
  | .maxRef => pure (harness, ← harness.constantBuffers 0 harness.depth.max)
  | .maxSrc => pure (harness, ← harness.constantBuffers harness.depth.max 0)
  | .alternating => pure (harness, ← harness.checkerBuffers)
  | _ =>
      let used := harness.sourceSize + harness.referencesSize + harness.block.area
      pure ({ harness with drawn := harness.drawn + used }, ← harness.randomBuffers)

/-! ## §3. Views. -/

/-- The source as a scenario lays it. -/
def sourceView (harness : SadHarness s) (scenario : SadScenario) (buffers : SadBuffers s) :
    Plane s :=
  let stride := harness.sourceStride
  match scenario with
  | .shortSrc => ⟨buffers.source, 0, (stride / 2 : Nat)⟩
  | .srcOffsetByWidth => ⟨buffers.source, harness.block.width, stride⟩
  | _ => ⟨buffers.source, 0, stride⟩

/-- Reference `i` in the loose layout. -/
def looseView (harness : SadHarness s) (scenario : SadScenario) (buffers : SadBuffers s)
    (i : Nat) : Plane s :=
  let stride := harness.referenceStride
  let start := i * harness.referenceStep
  match scenario with
  | .shortRef => ⟨buffers.references, start, (stride / 2 : Nat)⟩
  | .unalignedRef => ⟨buffers.references, start, (stride - 1 : Nat)⟩
  | .negativeStride =>
      ⟨buffers.references, start + (harness.block.height - 1) * stride, -(stride : Int)⟩
  | _ => ⟨buffers.references, start, stride⟩

/-- The four reference blocks, packed one after another. -/
def packed (harness : SadHarness s) (buffers : SadBuffers s) : Outcome (Array (Sample s)) := do
  let starts := (List.range 4).flatMap fun i => (List.range harness.block.height).map fun y =>
    i * harness.referenceStep + y * harness.referenceStride
  let rows ← starts.mapM fun start => slice buffers.references start harness.block.width
  pure rows.flatten.toArray

/-- The references as the candidates see them. -/
def referenceViews (harness : SadHarness s) (scenario : SadScenario) (buffers : SadBuffers s) :
    Outcome (Vector (Plane s) 4) := do
  match scenario with
  | .tightRef =>
      let tight ← harness.packed buffers
      pure (Vector.ofFn fun i : Fin 4 =>
        ⟨tight, i.val * harness.block.area, harness.block.width⟩)
  | _ => pure (Vector.ofFn fun i : Fin 4 => harness.looseView scenario buffers i.val)

/-! ## §4. Trials. -/

/-- The bound that is tried besides the others where everything is at an end of the range. -/
def extremeBound : Nat := 128

/-- The bounds at which a kernel is tried, given the exact cost. -/
def bounds (scenario : SadScenario) (exact : Nat) : List Nat :=
  [0, exact, min (exact + 1) uint32Max, uint32Max]
    ++ (if 0 < exact then [exact - 1] else [])
    ++ (if scenario = .maxRef ∨ scenario = .maxSrc then [extremeBound] else [])

/-- Whether a bounded kernel keeps its promise: exact up to the bound, not below it past it. -/
def keepsBound (exact bound got : Nat) : Bool :=
  if exact ≤ bound then got == exact else bound ≤ got

/-- What the candidates of one run are shown, and what is expected of them. -/
structure Setting (s : Storage) where
  key : KernelKey
  scenario : SadScenario
  source : Plane s
  /-- The references as the candidates see them. -/
  views : Vector (Plane s) 4
  /-- The references in the loose layout. -/
  loose : Vector (Plane s) 4
  second : Array (Sample s)
  /-- The reference costs over the loose layout. -/
  exact : Vector Nat 4

/-- The trials of one candidate. -/
def trials (setting : Setting s) (candidate : Implementation s) : List (Outcome Report.Trial) :=
  let { key, scenario, source, views, loose, second, exact } := setting
  let refLabel (i : Fin 4) := scenario.name ++ " ref " ++ toString i.val
  match candidate.kernel with
  | .sad run =>
      (List.finRange 4).map fun (i : Fin 4) => do
        let got ← run source views[i]
        pure (.equal key candidate.name (refLabel i) exact[i] got)
  | .sadX4 run =>
      match run source views with
      | .error fault => [.error fault]
      | .ok got =>
          (List.finRange 4).map fun (i : Fin 4) =>
            pure (.equal key candidate.name (refLabel i) exact[i] got[i])
  | .sadAvg run =>
      [do
        let expected ← Reference.sadAvg key.block source loose[0] second
        let got ← run source views[0] second
        pure (.equal key candidate.name scenario.name expected got)]
  | .sadBounded run =>
      (bounds scenario exact[0]).map fun bound => do
        let got ← run source views[0] bound
        pure {
          key
          implementation := candidate.name
          scenario := scenario.name ++ s!" bound {bound}"
          expected := exact[0]
          actual := got
          passed := keepsBound exact[0] bound got }
  | .intra _ => []

/-- Fills the buffers, lays the views and takes the reference costs, for runs under the label of a
kind. -/
def present (harness : SadHarness s) (kind : KernelKind) (scenario : SadScenario) :
    Outcome (SadHarness s × Setting s) := do
  let (next, buffers) ← harness.fill scenario
  let key : KernelKey := ⟨⟨kind, harness.block⟩, harness.depth⟩
  let source := harness.sourceView scenario buffers
  let loose := Vector.ofFn fun i : Fin 4 => harness.looseView scenario buffers i.val
  let views ← harness.referenceViews scenario buffers
  let exact ← loose.mapM (Reference.sad harness.block source)
  pure (next, { key, scenario, source, views, loose, second := buffers.second, exact })

/-- Presents a scenario to every candidate.  A fault ends the run; what was recorded before it
stays. -/
def run (harness : SadHarness s) (kind : KernelKind) (candidates : List (Implementation s))
    (scenario : SadScenario) (report : Report) : SadHarness s × Report × Outcome Unit :=
  match harness.present kind scenario with
  | .error fault => (harness, report, .error fault)
  | .ok (next, setting) => (next, report.recordAll (candidates.flatMap (trials setting)))

end SadHarness

end PixelKernels
