/-
  PixelKernels.Proofs.Reconstruction
  ──────────────────────────────────
  **PREDICTED BLOCKS FEED THE BORDERS OF LATER BLOCKS.**

  A reconstruction is one buffer and a list of steps.  A step reads its
  neighbours and its corner anywhere in the buffer, completes a border from
  them and predicts a block into the same buffer, so what one step writes is
  what the next ones see.

  The invariant is `Depth.Bounds`: no sample is above the maximum.

    • A border that is completed from such samples keeps to the maximum, and
      no mode refuses it (`build_of_bounds`, `EdgeBuffer.supplies`).
    • So only the destination can end a step (`Step.run_eq`), and what is
      written keeps to the maximum (`Step.run_sound`).
    • A run is step after step, by induction on the steps
      (`stages_sound`, `stages_congr`).
-/
import PixelKernels.Proofs.CompletedBorders
import PixelKernels.Proofs.WrittenBlocks

namespace PixelKernels

variable {s : Storage} {depth : Depth}

/-! ## §1. Samples within the depth. -/

/-- No sample is above the maximum of the depth. -/
def Depth.Bounds (depth : Depth) (samples : Array (Sample s)) : Prop :=
  ∀ v ∈ samples, v.toNat ≤ depth.max

/-- Reading past the end gives a default, and reading inside gives one of the samples. -/
theorem Depth.Bounds.getD {samples : Array (Sample s)} (h : depth.Bounds samples) {default : Sample s}
    (hdefault : default.toNat ≤ depth.max) (i : Nat) : (samples.getD i default).toNat ≤ depth.max :=
  forall_getD h hdefault i

theorem bounds_empty : depth.Bounds (#[] : Array (Sample s)) := by
  intro v hv
  simp at hv

theorem bounds_extendTo {neighbour : Array (Sample s)} (h : depth.Bounds neighbour) {missing : Sample s}
    (hmissing : missing.toNat ≤ depth.max) (n : Nat) : depth.Bounds (extendTo n missing neighbour) := by
  intro v hv
  obtain ⟨i, rfl⟩ := Array.mem_ofFn.mp hv
  exact h.getD hmissing _

/-- The values that stand in for missing neighbours are next to the middle of the range. -/
theorem toNat_ofNat_le {value : Nat} (h : value ≤ depth.max) :
    (BitVec.ofNat s.bits value).toNat ≤ depth.max := by
  rw [BitVec.toNat_ofNat]
  exact (Nat.mod_le _ _).trans h

/-! ## §2. Completed borders. -/

/-- **A border completed from samples within the depth is within the depth.** -/
theorem build_of_bounds {block : BlockSize} {above left : Option (Array (Sample s))}
    {corner : Sample s} (hblock : (KernelKind.intra .dc).supports block = true)
    (hdepth : depth.storage = s) (habove : ∀ row ∈ above, depth.Bounds row)
    (hleft : ∀ column ∈ left, depth.Bounds column) (hcorner : corner.toNat ≤ depth.max) :
    ∃ border, EdgeBuffer.build depth block above left corner = .ok border ∧
      border.side = block.width ∧ depth.Bounds border.edge.above ∧
      depth.Bounds border.edge.left ∧ border.edge.topLeft.toNat ≤ depth.max := by
  have hmid := Depth.two_mul_mid depth
  -- one below the middle and one above it are both inside the range
  have hpos : 2 ≤ depth.mid := by cases depth <;> decide
  have hbelow : (BitVec.ofNat s.bits (depth.mid - 1)).toNat ≤ depth.max := toNat_ofNat_le (by omega)
  have hover : (BitVec.ofNat s.bits (depth.mid + 1)).toNat ≤ depth.max := toNat_ofNat_le (by omega)
  have hrow : depth.Bounds (above.getD #[]) := by
    cases above with
    | none => exact bounds_empty
    | some row => exact habove row rfl
  have hcolumn : depth.Bounds (left.getD #[]) := by
    cases left with
    | none => exact bounds_empty
    | some column => exact hleft column rfl
  obtain ⟨border, hborder, hside, hedge⟩ :=
    EdgeBuffer.build_eq_completed hblock hdepth above left corner
  refine ⟨border, hborder, hside, ?_⟩
  rw [hedge]
  refine ⟨bounds_extendTo hrow hbelow _, bounds_extendTo hcolumn hover _, ?_⟩
  -- the corner is one of the two stand-ins unless both neighbours are there
  show (if (above.getD #[]).isEmpty then _ else if (left.getD #[]).isEmpty then _ else corner).toNat ≤ _
  split
  · exact hbelow
  · split
    · exact hover
    · exact hcorner

/-- **A completed border supplies every kernel of its side.** -/
theorem EdgeBuffer.supplies (border : EdgeBuffer s) (habove : depth.Bounds border.edge.above)
    (hleft : depth.Bounds border.edge.left) (hcorner : border.edge.topLeft.toNat ≤ depth.max)
    (kernel : IntraKernel) : border.edge.Supplies kernel border.side depth.max where
  above_size := by
    rw [border.above_size]
    cases kernel <;> simp only [IntraKernel.aboveLength] <;> omega
  left_size := by
    rw [border.left_size]
    cases kernel <;> simp only [IntraKernel.leftLength] <;> omega
  above_le := fun i _ => habove.getD (Nat.zero_le _) i
  left_le := fun i _ => hleft.getD (Nat.zero_le _) i
  corner_le := fun _ => hcorner

/-! ## §3. Steps. -/

namespace Reconstruction

/-- One prediction: where its neighbours and its corner are in the buffer, and what it predicts where. -/
structure Step where
  /-- Positions of the samples above, if there is a neighbour above. -/
  above : Option (List Nat)
  /-- Positions of the samples to the left, if there is a neighbour to the left. -/
  left : Option (List Nat)
  /-- Position of the corner. -/
  corner : Nat
  block : BlockSize
  mode : IntraMode
  /-- Position of the first row of the destination. -/
  base : Nat
  /-- Distance of the rows of the destination. -/
  stride : Int

/-- A step of a buffer of this size: a size of intra blocks, and neighbours that are in the buffer. -/
structure Step.Reads (step : Step) (size : Nat) : Prop where
  supported : (KernelKind.intra .dc).supports step.block = true
  above_lt : ∀ positions ∈ step.above, ∀ i ∈ positions, i < size
  left_lt : ∀ positions ∈ step.left, ∀ i ∈ positions, i < size
  corner_lt : step.corner < size

/-- The samples at these positions. -/
def gather (buffer : Array (Sample s)) (positions : List Nat) : Outcome (Array (Sample s)) := do
  pure (← positions.mapM (elementAt buffer)).toArray

/-- The samples of a neighbour, if it is there. -/
def gather? (buffer : Array (Sample s)) : Option (List Nat) → Outcome (Option (Array (Sample s)))
  | none => pure none
  | some positions => do pure (some (← gather buffer positions))

namespace Step

/-- The border that a step completes from what is in the buffer. -/
def border (step : Step) (depth : Depth) (buffer : Array (Sample s)) : Outcome (EdgeBuffer s) := do
  let above ← gather? buffer step.above
  let left ← gather? buffer step.left
  let corner ← elementAt buffer step.corner
  EdgeBuffer.build depth step.block above left corner

/-- The plane that a step writes into. -/
def destination (step : Step) (buffer : Array (Sample s)) : Plane s :=
  ⟨buffer, step.base, step.stride⟩

/-- Completes the border and predicts the block in place. -/
def run (step : Step) (kernels : Kernels) (depth : Depth) (buffer : Array (Sample s)) : Painting s :=
  match step.border depth buffer with
  | .error fault => .refused buffer fault
  | .ok border =>
      kernels.predictIntra depth step.block step.mode (step.destination buffer) border.edge

end Step

/-! ## §4. What a step can do. -/

theorem gather_of_lt {buffer : Array (Sample s)} {positions : List Nat} (hbuffer : depth.Bounds buffer)
    (h : ∀ i ∈ positions, i < buffer.size) :
    ∃ samples, gather buffer positions = .ok samples ∧ depth.Bounds samples := by
  refine ⟨(positions.map (buffer.getD · 0)).toArray, ?_, ?_⟩
  · rw [gather, Outcome.mapM_of_forall_ok fun i hi => elementAt_eq_getD (h i hi) 0]
    rfl
  · intro v hv
    obtain ⟨i, _, rfl⟩ := List.mem_map.mp (List.mem_toArray.mp hv)
    exact hbuffer.getD (Nat.zero_le _) i

theorem gather?_of_lt {buffer : Array (Sample s)} {neighbour : Option (List Nat)}
    (hbuffer : depth.Bounds buffer) (h : ∀ positions ∈ neighbour, ∀ i ∈ positions, i < buffer.size) :
    ∃ samples, gather? buffer neighbour = .ok samples ∧ ∀ found ∈ samples, depth.Bounds found := by
  cases neighbour with
  | none => exact ⟨none, rfl, nofun⟩
  | some positions =>
    obtain ⟨samples, hsamples, hbounds⟩ := gather_of_lt hbuffer (h positions rfl)
    refine ⟨some samples, ?_, ?_⟩
    · rw [gather?, hsamples]
      rfl
    · rintro _ ⟨rfl⟩
      exact hbounds

namespace Step

variable {step : Step} {buffer : Array (Sample s)}

/-- **A border can be completed at every step, and every kernel is supplied by it.** -/
theorem border_of_reads (hdepth : depth.storage = s) (hbuffer : depth.Bounds buffer)
    (hreads : step.Reads buffer.size) :
    ∃ border, step.border depth buffer = .ok border ∧
      ∀ kernel, border.edge.Supplies kernel step.block.width depth.max := by
  obtain ⟨above, habove, hrow⟩ := gather?_of_lt hbuffer hreads.above_lt
  obtain ⟨left, hleft, hcolumn⟩ := gather?_of_lt hbuffer hreads.left_lt
  have hsample : (buffer.getD step.corner 0).toNat ≤ depth.max := hbuffer.getD (Nat.zero_le _) _
  obtain ⟨border, hborder, hside, hedgeAbove, hedgeLeft, hcorner⟩ :=
    build_of_bounds hreads.supported hdepth hrow hcolumn hsample
  refine ⟨border, ?_, ?_⟩
  · rw [Step.border, habove, Outcome.ok_bind, hleft, Outcome.ok_bind, elementAt_eq_getD hreads.corner_lt 0,
      Outcome.ok_bind, hborder]
  · intro kernel
    rw [← hside]
    exact border.supplies hedgeAbove hedgeLeft hcorner kernel

/-- **A step writes its predicted block if the destination fits, and does nothing else.** -/
theorem run_eq {kernels : Kernels} {processor : Processor} (h : kernels.Selects processor)
    (hdepth : depth.storage = s) {border : EdgeBuffer s} (hborder : step.border depth buffer = .ok border)
    (hblock : (KernelKind.intra .dc).supports step.block = true)
    (hsupplies : ∀ kernel, border.edge.Supplies kernel step.block.width depth.max) :
    step.run kernels depth buffer = (step.destination buffer).paintOutcome (do
      Outcome.require (← (step.destination buffer).fits step.block.width step.block.height)
        (.violation (.destinationTooSmall step.block))
      pure (Intra.predicted (border.edge.kernelFor step.mode) step.block.width border.edge depth.max)) := by
  unfold Step.run
  rw [hborder]
  show kernels.predictIntra depth step.block step.mode (step.destination buffer) border.edge = _
  rw [Kernels.predictIntra_eq h hdepth, Kernels.checkPrediction_of_supplies hblock (hsupplies _), bind_assoc]

end Step

/-! ## §5. What a step keeps. -/

/-- A step together with the buffer that it met and what it made of it. -/
structure Stage (s : Storage) where
  before : Array (Sample s)
  step : Step
  painting : Painting s

/-- What is promised of every stage. -/
structure Stage.Sound (stage : Stage s) (depth : Depth) : Prop where
  bounds : depth.Bounds stage.painting.buffer
  size : stage.painting.buffer.size = stage.before.size
  /-- Only the destination can end a step, and then nothing was written. -/
  ends :
    let fits := (stage.step.destination stage.before).fits stage.step.block.width stage.step.block.height
    fits = .ok true ∧ stage.painting.outcome = .ok () ∨
    fits = .ok false ∧ stage.painting
      = .refused stage.before (.violation (.destinationTooSmall stage.step.block)) ∨
    fits = .error .overflow ∧ stage.painting = .refused stage.before .overflow

/-- **A step keeps to the maximum, and only its destination can end it.** -/
theorem step_sound {kernels : Kernels} {processor : Processor} (h : kernels.Selects processor)
    (hdepth : depth.storage = s) {buffer : Array (Sample s)} {step : Step}
    (hbuffer : depth.Bounds buffer) (hreads : step.Reads buffer.size) :
    (⟨buffer, step, step.run kernels depth buffer⟩ : Stage s).Sound depth := by
  obtain ⟨border, hborder, hsupplies⟩ := Step.border_of_reads hdepth hbuffer hreads
  have hrun := Step.run_eq h hdepth hborder hreads.supported hsupplies
  rw [hrun]
  -- the destination decides: no answer, no room, or room
  cases hfits : (step.destination buffer).fits step.block.width step.block.height with
  | error fault =>
    obtain rfl := Plane.faultsOnlyWith_fits _ _ _ fault hfits
    exact ⟨hbuffer, rfl, .inr (.inr ⟨hfits, rfl⟩)⟩
  | ok fits =>
    cases fits with
    | false => exact ⟨hbuffer, rfl, .inr (.inl ⟨hfits, rfl⟩)⟩
    | true =>
      obtain ⟨hsquare, _, hside⟩ := KernelKind.intra_supports hreads.supported
      obtain ⟨houtcome, hsize⟩ := Plane.paint_predicted_of_fits (border.edge.kernelFor step.mode)
        border.edge depth.max (show step.block.width < 2 ^ 63 by omega) (hsquare ▸ hfits)
      exact ⟨Plane.forall_mem_paint hbuffer (Intra.predicted_le (hsupplies _)), hsize,
        .inl ⟨hfits, houtcome⟩⟩

/-- A step does not look at the level: bundles differ in what they run, not in what it writes. -/
theorem run_congr {first second : Kernels} {processor₁ processor₂ : Processor}
    (h₁ : first.Selects processor₁) (h₂ : second.Selects processor₂) (hdepth : depth.storage = s)
    (step : Step) (buffer : Array (Sample s)) :
    step.run first depth buffer = step.run second depth buffer := by
  unfold Step.run
  cases step.border depth buffer with
  | error fault => rfl
  | ok border =>
    show first.predictIntra _ _ _ _ _ = second.predictIntra _ _ _ _ _
    rw [Kernels.predictIntra_eq h₁ hdepth, Kernels.predictIntra_eq h₂ hdepth]

/-! ## §6. Runs. -/

/-- The stages of a run, one for each step; each step meets what the one before it left. -/
def stages (kernels : Kernels) (depth : Depth) : Array (Sample s) → List Step → List (Stage s)
  | _, [] => []
  | buffer, step :: rest =>
      let painting := step.run kernels depth buffer
      ⟨buffer, step, painting⟩ :: stages kernels depth painting.buffer rest

theorem map_step_stages (kernels : Kernels) (depth : Depth) {steps : List Step} :
    ∀ buffer : Array (Sample s), (stages kernels depth buffer steps).map Stage.step = steps := by
  induction steps with
  | nil => intro buffer; rfl
  | cons step rest ih =>
    intro buffer
    show step :: (stages kernels depth (step.run kernels depth buffer).buffer rest).map Stage.step = _
    rw [ih]

/-- **Every stage of a run is sound.** -/
theorem stages_sound {kernels : Kernels} {processor : Processor} (h : kernels.Selects processor)
    (hdepth : depth.storage = s) {steps : List Step} :
    ∀ {buffer : Array (Sample s)}, depth.Bounds buffer → (∀ step ∈ steps, step.Reads buffer.size) →
      ∀ stage ∈ stages kernels depth buffer steps, stage.Sound depth := by
  induction steps with
  | nil =>
    intro buffer _ _ stage hstage
    cases hstage
  | cons step rest ih =>
    intro buffer hbuffer hsteps
    have hsound := step_sound h hdepth hbuffer (hsteps step List.mem_cons_self)
    have hsize : (step.run kernels depth buffer).buffer.size = buffer.size := hsound.size
    -- the invariant and the size are what the next step needs of this one
    have hrest := ih hsound.bounds fun other hother =>
      hsize.symm ▸ hsteps other (List.mem_cons_of_mem step hother)
    exact List.forall_mem_cons.mpr ⟨hsound, hrest⟩

/-- **A run is the same for every two bundles.** -/
theorem stages_congr {first second : Kernels} {processor₁ processor₂ : Processor}
    (h₁ : first.Selects processor₁) (h₂ : second.Selects processor₂) (hdepth : depth.storage = s)
    {steps : List Step} :
    ∀ buffer : Array (Sample s), stages first depth buffer steps = stages second depth buffer steps := by
  -- equal steps leave equal buffers, and the rest of both runs starts from them
  induction steps with
  | nil => intro buffer; rfl
  | cons step rest ih =>
    intro buffer
    show _ :: stages first depth (step.run first depth buffer).buffer rest = _ :: stages second depth _ rest
    rw [run_congr h₁ h₂ hdepth step buffer, ih]

end Reconstruction

open Reconstruction in
/-- **A reconstruction goes through the same stages at every level of every processor, and all of them
are sound**: samples stay within the depth, and a step fails only where its destination does not fit,
and then changes nothing. -/
theorem reconstruction_same_and_sound (depth : Depth) (buffer : Array (Sample depth.storage))
    (steps : List Step) (hbuffer : depth.Bounds buffer) (hsteps : ∀ step ∈ steps, step.Reads buffer.size) :
    ∃ trace : List (Stage depth.storage), trace.map Stage.step = steps ∧
      (∀ (processor : Processor) (level : CpuLevel), ∃ kernels,
        Kernels.atLevel processor level = .ok kernels ∧ stages kernels depth buffer steps = trace) ∧
      ∀ stage ∈ trace, stage.Sound depth := by
  obtain ⟨portable, hportable, hselects⟩ := Kernels.atLevel_selects .full .scalar
  refine ⟨stages portable depth buffer steps, map_step_stages portable depth buffer, ?_,
    stages_sound hselects rfl hbuffer hsteps⟩
  intro processor level
  obtain ⟨kernels, hkernels, hother⟩ := Kernels.atLevel_selects processor level
  exact ⟨kernels, hkernels, stages_congr hother hselects rfl buffer⟩

namespace Reconstruction

/-- A bright buffer of six rows of eight twelve-bit samples. -/
def brightBuffer : Array (Sample .word) := Array.replicate 48 4000

/-- A block from nothing, and one from its last row and last column that runs past the buffer. -/
def twoBlocks : List Step :=
  [⟨none, none, 0, .b4x4, .dc, 0, 8⟩, ⟨some [24, 25, 26, 27], some [3, 11, 19, 27], 27, .b4x4, .d135, 40, 8⟩]

theorem bounds_brightBuffer : Depth.twelve.Bounds brightBuffer := by
  intro v hv
  obtain ⟨_, rfl⟩ := Array.mem_replicate.mp hv
  decide

theorem reads_twoBlocks : ∀ step ∈ twoBlocks, step.Reads brightBuffer.size := by
  rw [show brightBuffer.size = 48 from rfl]
  simp only [twoBlocks, List.forall_mem_cons]
  exact ⟨⟨by decide, nofun, nofun, by decide⟩, ⟨by decide, by simp, by simp, by decide⟩, nofun⟩

end Reconstruction

/-- Two blocks, of which the second is refused. -/
theorem reconstruction_of_two_blocks :
    Depth.twelve.Bounds Reconstruction.brightBuffer ∧
    (∀ step ∈ Reconstruction.twoBlocks, step.Reads Reconstruction.brightBuffer.size) ∧
    ∃ trace : List (Reconstruction.Stage .word), trace.map (·.step) = Reconstruction.twoBlocks ∧
      (∀ (processor : Processor) (level : CpuLevel), ∃ kernels,
        Kernels.atLevel processor level = .ok kernels ∧
          Reconstruction.stages kernels .twelve Reconstruction.brightBuffer Reconstruction.twoBlocks
            = trace) ∧
      ∀ stage ∈ trace, stage.Sound .twelve :=
  ⟨Reconstruction.bounds_brightBuffer, Reconstruction.reads_twoBlocks,
    reconstruction_same_and_sound .twelve Reconstruction.brightBuffer Reconstruction.twoBlocks
      Reconstruction.bounds_brightBuffer Reconstruction.reads_twoBlocks⟩

end PixelKernels
