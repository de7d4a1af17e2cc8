/-
  PixelKernels.Proofs.Refusals
  ────────────────────────────
  **A CALL FAILS IN ITS CHECKS OR NOT AT ALL.**

  An entry point checks first and runs a kernel afterwards.  Every fault of
  the checks has a reason that is about the arguments alone (`RefusesCost`,
  `RefusesPrediction`): the cell, the size or the border, the fit and its
  64-bit arithmetic, the length of the second predictor, a sample above the
  maximum.  Where there is no such reason the kernel that was chosen returns,
  so none of its own assertions, sums, row positions and slices gives way.

  One assertion remains: the portable kernel for four references asks for one
  stride, which no check does (`Kernels.AssertsStride`).  It runs where it is
  selected, and in place of the wide kernel where that gets no token.

    • Each check faults only for its reason (`faultsWithin_requireHolds` and
      the like), and the checks of an entry point only for theirs.
    • What passed them leaves no reason to refuse (`not_refusesPlane` and the
      like), and is answered by every kernel (`run_sad` and the like).
-/
import PixelKernels.Proofs.BoundedCosts
import PixelKernels.Proofs.LevelIndependence
import PixelKernels.Proofs.WrittenBlocks

namespace PixelKernels

open Outcome (FaultsWithin)
open Sad (packed)

variable {s : Storage} {depth : Depth} {block : BlockSize} {role : Role}

/-! ## §1. Reasons to refuse. -/

/-- Why a plane is refused for a block. -/
inductive RefusesPlane (role : Role) (depth : Depth) (block : BlockSize) (plane : Plane s) :
    Fault → Prop
  /-- 64 bits do not suffice to tell where the block lies. -/
  | overflow (h : plane.fits block.width block.height = .error .overflow) :
      RefusesPlane role depth block plane .overflow
  /-- The block does not lie inside the buffer. -/
  | tooSmall (h : plane.fits block.width block.height = .ok false) :
      RefusesPlane role depth block plane
        (.violation (.planeTooSmall role plane.base plane.stride plane.data.size block))
  /-- A sample of the block is above the maximum. -/
  | tooLarge {x y : Nat} (hx : x < block.width) (hy : y < block.height)
      (h : depth.max < (plane.pixel x y).toNat) :
      RefusesPlane role depth block plane
        (.violation (.sampleTooLarge role (plane.pixel x y).toNat depth))

/-- Why a second predictor is refused for a block. -/
inductive RefusesSecond (depth : Depth) (block : BlockSize) (second : Array (Sample s)) : Fault → Prop
  /-- It does not cover the block. -/
  | tooShort (h : second.size < block.area) :
      RefusesSecond depth block second
        (.violation (.secondPredictorTooShort second.size block))
  /-- One of its samples in the block is above the maximum. -/
  | tooLarge {x y : Nat} (hx : x < block.width) (hy : y < block.height)
      (h : depth.max < (packed block.width second x y).toNat) :
      RefusesSecond depth block second
        (.violation (.sampleTooLarge .secondPredictor (packed block.width second x y).toNat depth))

/-- Why a cost is refused: of this kind, of a block of these planes, and of this second predictor if
the kind has one. -/
inductive RefusesCost (kind : KernelKind) (depth : Depth) (block : BlockSize)
    (planes : List (Role × Plane s)) (second : Option (Array (Sample s))) : Fault → Prop
  /-- The depth lives in the other cell. -/
  | storage (h : depth.storage ≠ s) :
      RefusesCost kind depth block planes second (.violation (.wrongStorage depth s))
  /-- The size is not one of the kind's. -/
  | size (h : kind.supports block = false) :
      RefusesCost kind depth block planes second (.violation (.noKernel kind block))
  /-- One of the planes is refused. -/
  | plane {role : Role} {plane : Plane s} {fault : Fault} (hin : (role, plane) ∈ planes)
      (h : RefusesPlane role depth block plane fault) :
      RefusesCost kind depth block planes second fault
  /-- The second predictor is refused. -/
  | second {samples : Array (Sample s)} {fault : Fault} (hin : samples ∈ second)
      (h : RefusesSecond depth block samples fault) :
      RefusesCost kind depth block planes second fault

/-- Which sample of a border is above the maximum, of those that the kernel reads. -/
inductive RefusesBorder (depth : Depth) (kernel : IntraKernel) (n : Nat) (edge : IntraEdge s) :
    Fault → Prop
  | topLeft (hreads : kernel.readsTopLeft = true) (h : depth.max < edge.topLeft.toNat) :
      RefusesBorder depth kernel n edge
        (.violation (.sampleTooLarge .topLeft edge.topLeft.toNat depth))
  | above {i : Nat} (hi : i < kernel.aboveLength n) (h : depth.max < (edge.above.getD i 0).toNat) :
      RefusesBorder depth kernel n edge
        (.violation (.sampleTooLarge .aboveEdge (edge.above.getD i 0).toNat depth))
  | left {i : Nat} (hi : i < kernel.leftLength n) (h : depth.max < (edge.left.getD i 0).toNat) :
      RefusesBorder depth kernel n edge
        (.violation (.sampleTooLarge .leftEdge (edge.left.getD i 0).toNat depth))

/-- Why a prediction is refused. -/
inductive RefusesPrediction (depth : Depth) (block : BlockSize) (mode : IntraMode)
    (destination : Plane s) (edge : IntraEdge s) : Fault → Prop
  /-- The depth lives in the other cell. -/
  | storage (h : depth.storage ≠ s) :
      RefusesPrediction depth block mode destination edge (.violation (.wrongStorage depth s))
  /-- The border was refused, for its size or for its lengths. -/
  | border {cause : Error} (h : edge.check (edge.kernelFor mode) block = .error cause) :
      RefusesPrediction depth block mode destination edge
        (.violation (.predictionRefused mode block cause))
  /-- 64 bits do not suffice to tell where the block lies. -/
  | overflow (h : destination.fits block.width block.height = .error .overflow) :
      RefusesPrediction depth block mode destination edge .overflow
  /-- The block does not lie inside the destination. -/
  | tooSmall (h : destination.fits block.width block.height = .ok false) :
      RefusesPrediction depth block mode destination edge (.violation (.destinationTooSmall block))
  /-- A sample of the border is above the maximum. -/
  | sample {fault : Fault} (h : RefusesBorder depth (edge.kernelFor mode) block.width edge fault) :
      RefusesPrediction depth block mode destination edge fault

namespace Kernels

/-! ## §2. What passed leaves no reason. -/

theorem not_refusesPlane {plane : Plane s} (h : Admits depth block plane) (fault : Fault) :
    ¬ RefusesPlane role depth block plane fault := by
  intro hrefuses
  have hfits := h.fits
  cases hrefuses with
  | overflow hoverflow =>
    rw [hoverflow] at hfits
    cases hfits
  | tooSmall hsmall =>
    rw [hsmall] at hfits
    cases hfits
  | tooLarge hx hy hlarge => exact Nat.not_le_of_lt hlarge (h.inRange _ hx _ hy)

theorem not_refusesSecond {second : Array (Sample s)} (hcover : block.area ≤ second.size)
    (hsecond : ∀ x < block.width, ∀ y < block.height,
      (packed block.width second x y).toNat ≤ depth.max) (fault : Fault) :
    ¬ RefusesSecond depth block second fault := by
  intro hrefuses
  cases hrefuses with
  | tooShort hshort => exact Nat.not_le_of_lt hshort hcover
  | tooLarge hx hy hlarge => exact Nat.not_le_of_lt hlarge (hsecond _ hx _ hy)

/-- Where there is no second predictor none is refused. -/
theorem not_refusesSecond_of_mem_none {samples : Array (Sample s)}
    (h : samples ∈ (none : Option (Array (Sample s)))) (fault : Fault) :
    ¬ RefusesSecond depth block samples fault :=
  absurd h (Option.not_mem_none samples)

theorem not_refusesCost {kind : KernelKind} {planes : List (Role × Plane s)}
    {second : Option (Array (Sample s))} (hdepth : depth.storage = s)
    (hblock : kind.supports block = true) (hplanes : ∀ p ∈ planes, Admits depth block p.2)
    (hsecond : ∀ samples ∈ second, ∀ fault, ¬ RefusesSecond depth block samples fault)
    (fault : Fault) : ¬ RefusesCost kind depth block planes second fault := by
  intro hrefuses
  cases hrefuses with
  | storage hne => exact hne hdepth
  | size hsize =>
    rw [hblock] at hsize
    cases hsize
  | plane hin hplane => exact not_refusesPlane (hplanes _ hin) fault hplane
  | second hin hrefused => exact hsecond _ hin fault hrefused

theorem not_refusesBorder {kernel : IntraKernel} {n : Nat} {edge : IntraEdge s}
    (h : edge.Supplies kernel n depth.max) (fault : Fault) :
    ¬ RefusesBorder depth kernel n edge fault := by
  intro hrefuses
  cases hrefuses with
  | topLeft hreads hlarge => exact Nat.not_le_of_lt hlarge (h.corner_le hreads)
  | above hi hlarge => exact Nat.not_le_of_lt hlarge (h.above_le _ hi)
  | left hi hlarge => exact Nat.not_le_of_lt hlarge (h.left_le _ hi)

theorem not_refusesPrediction {mode : IntraMode} {destination : Plane s} {edge : IntraEdge s}
    (hdepth : depth.storage = s) (hedge : edge.check (edge.kernelFor mode) block = .ok ())
    (hfits : destination.fits block.width block.height = .ok true)
    (hsupplies : edge.Supplies (edge.kernelFor mode) block.width depth.max) (fault : Fault) :
    ¬ RefusesPrediction depth block mode destination edge fault := by
  intro hrefuses
  cases hrefuses with
  | storage hne => exact hne hdepth
  | border hcause =>
    rw [hedge] at hcause
    cases hcause
  | overflow hoverflow =>
    rw [hfits] at hoverflow
    cases hoverflow
  | tooSmall hsmall =>
    rw [hfits] at hsmall
    cases hsmall
  | sample hsample => exact not_refusesBorder hsupplies fault hsample

/-! ## §3. A check faults for its reason only. -/

/-- Asking for a fit faults in its arithmetic, or because there is no room. -/
theorem faultsWithin_requireFits {P : Fault → Prop} {plane : Plane s} {width height : Nat} {fault : Fault}
    (hoverflow : plane.fits width height = .error .overflow → P .overflow)
    (hsmall : plane.fits width height = .ok false → P fault) :
    FaultsWithin P (do Outcome.require (← plane.fits width height) fault) := by
  intro found hfound
  cases hfits : plane.fits width height with
  | error cause =>
    obtain rfl := Plane.faultsOnlyWith_fits plane _ _ cause hfits
    rw [hfits] at hfound
    cases hfound
    exact hoverflow hfits
  | ok fits =>
    rw [hfits, Outcome.ok_bind] at hfound
    refine Outcome.faultsWithin_require (fun hno => hsmall ?_) found hfound
    rw [hfits, hno]

theorem faultsWithin_requireHolds (plane : Plane s) :
    FaultsWithin (RefusesPlane role depth block plane) (requireHolds role block plane) :=
  faultsWithin_requireFits .overflow .tooSmall

theorem faultsWithin_requireInRange {P : Fault → Prop} {samples : List (Sample s)}
    (h : ∀ v ∈ samples, depth.max < v.toNat → P (.violation (.sampleTooLarge role v.toNat depth))) :
    FaultsWithin P (requireInRange role depth samples) := by
  intro fault hfault
  unfold requireInRange at hfault
  split at hfault
  · next v hfind =>
    cases hfault
    have hlarge := List.find?_some hfind
    exact h v (List.mem_of_find?_eq_some hfind) (of_decide_eq_true hlarge)
  · cases hfault

/-- On a plane that holds the block, only a sample can be refused: every row is read. -/
theorem faultsWithin_requireBlockInRange {plane : Plane s}
    (hfits : plane.fits block.width block.height = .ok true) :
    FaultsWithin (RefusesPlane role depth block plane)
      (requireBlockInRange role depth block plane) := by
  have hw := block.width_le
  have hh := block.height_le
  have hholds := Plane.holds_of_fits (by omega) (by omega) hfits
  refine Outcome.faultsWithin_forM fun y hy => ?_
  have hy := List.mem_range.mp hy
  rw [Plane.row_of_holds hholds hy, Outcome.ok_bind]
  refine faultsWithin_requireInRange fun v hv hlarge => ?_
  obtain ⟨x, hx, rfl⟩ := List.mem_map.mp hv
  exact .tooLarge (List.mem_range.mp hx) hy hlarge

/-- Fit and range of one plane, in this order. -/
theorem faultsWithin_requirePlane (plane : Plane s) :
    FaultsWithin (RefusesPlane role depth block plane) (do
      requireHolds role block plane
      requireBlockInRange role depth block plane) :=
  (faultsWithin_requireHolds plane).bind fun _ hholds =>
    faultsWithin_requireBlockInRange (requireHolds_eq_ok_iff.mp hholds)

/-- A second predictor that covers the block is refused for a sample only, and a flat position is a
column of a row. -/
theorem faultsWithin_requirePackedInRange {second : Array (Sample s)}
    (hcover : block.area ≤ second.size) :
    FaultsWithin (RefusesSecond depth block second)
      (slice second 0 block.area >>= requireInRange .secondPredictor depth) := by
  rw [slice_eq_map_range (by omega) 0, Outcome.ok_bind]
  refine faultsWithin_requireInRange fun v hv hlarge => ?_
  obtain ⟨i, hi, rfl⟩ := List.mem_map.mp hv
  have hat : second.getD (0 + i) 0 = packed block.width second (i % block.width) (i / block.width) := by
    rw [packed, Nat.zero_add, Nat.div_add_mod']
  rw [hat] at hlarge ⊢
  exact .tooLarge (Nat.mod_lt i block.width_pos) (Nat.div_lt_of_lt_mul (List.mem_range.mp hi)) hlarge

theorem faultsWithin_requireEdgeInRange {edge : IntraEdge s} {kernel : IntraKernel} {n : Nat}
    (habove : kernel.aboveLength n ≤ edge.above.size) (hleft : kernel.leftLength n ≤ edge.left.size) :
    FaultsWithin (RefusesBorder depth kernel n edge) (requireEdgeInRange depth kernel n edge) := by
  unfold requireEdgeInRange
  rw [IntraEdge.aboveRow_of_le habove, IntraEdge.leftColumn_of_le hleft]
  have hrow : FaultsWithin (RefusesBorder depth kernel n edge) (do
      requireInRange .aboveEdge depth ((List.range (kernel.aboveLength n)).map fun i => edge.above.getD i 0)
      requireInRange .leftEdge depth ((List.range (kernel.leftLength n)).map fun i => edge.left.getD i 0)) := by
    refine (faultsWithin_requireInRange fun v hv hlarge => ?_).bind fun _ _ =>
      faultsWithin_requireInRange fun v hv hlarge => ?_
    · obtain ⟨i, hi, rfl⟩ := List.mem_map.mp hv
      exact .above (List.mem_range.mp hi) hlarge
    · obtain ⟨i, hi, rfl⟩ := List.mem_map.mp hv
      exact .left (List.mem_range.mp hi) hlarge
  -- the corner is checked only for the kernels that read it
  by_cases hreads : kernel.readsTopLeft = true
  · rw [if_pos hreads]
    refine (faultsWithin_requireInRange fun v hv hlarge => ?_).bind fun _ _ => hrow
    obtain rfl := List.mem_singleton.mp hv
    exact .topLeft hreads hlarge
  · rw [if_neg hreads]
    exact hrow

/-! ## §4. So do the checks of an entry point. -/

section Checks

variable {source reference : Plane s}

/-- A source that is refused is a reason to refuse the cost of the pair. -/
theorem refusesCost_of_source {kind : KernelKind} {second : Option (Array (Sample s))} (fault : Fault)
    (h : RefusesPlane .source depth block source fault) :
    RefusesCost kind depth block [(.source, source), (.reference, reference)] second fault :=
  .plane (by simp) h

/-- And so is a reference. -/
theorem refusesCost_of_reference {kind : KernelKind} {second : Option (Array (Sample s))}
    (fault : Fault) (h : RefusesPlane .reference depth block reference fault) :
    RefusesCost kind depth block [(.source, source), (.reference, reference)] second fault :=
  .plane (by simp) h

theorem faultsWithin_pair {kind : KernelKind} {second : Option (Array (Sample s))} :
    FaultsWithin (RefusesCost kind depth block [(.source, source), (.reference, reference)] second)
      (requirePair depth block source reference) := by
  unfold requirePair
  refine ((faultsWithin_requireHolds source).mono refusesCost_of_source).bind fun _ hs => ?_
  refine ((faultsWithin_requireHolds reference).mono refusesCost_of_reference).bind fun _ hr => ?_
  have hs := requireHolds_eq_ok_iff.mp hs
  have hr := requireHolds_eq_ok_iff.mp hr
  exact ((faultsWithin_requireBlockInRange hs).mono refusesCost_of_source).bind fun _ _ =>
    (faultsWithin_requireBlockInRange hr).mono refusesCost_of_reference

theorem faultsWithin_checkSadBounded :
    FaultsWithin (RefusesCost .sadBounded depth block [(.source, source), (.reference, reference)] none)
      (checkSadBounded depth block source reference) := by
  unfold checkSadBounded
  exact (Outcome.faultsWithin_require .size).bind fun _ _ => faultsWithin_pair

theorem faultsWithin_checkSadX4 {references : Vector (Plane s) 4} :
    FaultsWithin
      (RefusesCost .sadX4 depth block
        ((.source, source) :: references.toList.map fun reference => (.reference, reference)) none)
      (checkSadX4 depth block source references) := by
  unfold checkSadX4
  rw [← bind_assoc]
  refine ((faultsWithin_requirePlane source).mono fun _ h => .plane List.mem_cons_self h).bind
    fun _ _ => Outcome.faultsWithin_forM_vector fun reference hin => ?_
  have hmem : reference ∈ references.toList := Vector.mem_toList_iff.mpr hin
  exact (faultsWithin_requirePlane reference).mono fun _ h =>
    .plane (List.mem_cons_of_mem _ (List.mem_map_of_mem hmem)) h

theorem faultsWithin_checkSadAvg {second : Array (Sample s)} :
    FaultsWithin
      (RefusesCost .sadAvg depth block [(.source, source), (.reference, reference)] (some second))
      (checkSadAvg depth block source reference second) := by
  unfold checkSadAvg
  refine (Outcome.faultsWithin_require .size).bind fun _ _ => ?_
  refine ((faultsWithin_requireHolds source).mono refusesCost_of_source).bind fun _ hs => ?_
  refine ((faultsWithin_requireHolds reference).mono refusesCost_of_reference).bind fun _ hr => ?_
  have hs := requireHolds_eq_ok_iff.mp hs
  have hr := requireHolds_eq_ok_iff.mp hr
  -- the length is checked between the fits and the ranges
  refine (Outcome.faultsWithin_require fun hshort => ?_).bind fun _ hcover => ?_
  · exact .second rfl (.tooShort (Nat.lt_of_not_le (of_decide_eq_false hshort)))
  · have hcover : block.area ≤ second.size :=
      of_decide_eq_true (Outcome.require_eq_ok_iff.mp hcover)
    refine ((faultsWithin_requireBlockInRange hs).mono refusesCost_of_source).bind fun _ _ => ?_
    refine ((faultsWithin_requireBlockInRange hr).mono refusesCost_of_reference).bind fun _ _ => ?_
    exact (faultsWithin_requirePackedInRange hcover).mono fun _ h => .second rfl h

theorem faultsWithin_checkPrediction {mode : IntraMode} {destination : Plane s} {edge : IntraEdge s} :
    FaultsWithin (RefusesPrediction depth block mode destination edge)
      (checkPrediction depth block mode destination edge) := by
  unfold checkPrediction
  cases hcheck : edge.check (edge.kernelFor mode) block with
  | error cause =>
    intro fault hfault
    cases hfault
    exact .border hcheck
  | ok _ =>
    obtain ⟨_, habove, hleft⟩ := check_eq_ok_iff.mp hcheck
    dsimp only
    rw [← bind_assoc]
    exact (faultsWithin_requireFits .overflow .tooSmall).bind fun _ _ =>
      (faultsWithin_requireEdgeInRange habove hleft).mono fun _ h => .sample h

end Checks

end Kernels

/-! ## §5. Calls that fail in their checks or not at all. -/

/-- A call whose checks answer `admitted`, with the `kernel` that is then run: it can be refused, for a
reason among `refuses`, or trip over an assertion of the kernel itself, if there is one, and otherwise
it returns. -/
structure FailsOnlyInChecks {ρ α : Type} (refuses : Fault → Prop) (asserts : Prop)
    (admitted : Outcome ρ) (kernel : ρ → Outcome α) (call : Outcome α) : Prop where
  /-- A check that fails ends the call, and has a reason. -/
  refused : ∀ fault, admitted = .error fault → refuses fault ∧ call = .error fault
  /-- There is no reason to refuse what is admitted. -/
  unrefusable : ∀ run, admitted = .ok run → ∀ fault, ¬ refuses fault
  /-- The kernel returns, and the call with it. -/
  returns : ∀ run, admitted = .ok run → ¬ asserts →
    ∃ answer, kernel run = .ok answer ∧ call = .ok answer
  /-- The kernel's own assertion fails, and the call with it. -/
  asserted : ∀ run, admitted = .ok run → asserts →
    kernel run = .error .assertion ∧ call = .error .assertion

namespace FailsOnlyInChecks

variable {ρ α : Type} {refuses : Fault → Prop} {asserts : Prop} {kernel : ρ → Outcome α}

theorem of_refused {fault : Fault} (h : refuses fault) :
    FailsOnlyInChecks refuses asserts (.error fault) kernel (.error fault) where
  refused := by
    intro found hfound
    cases hfound
    exact ⟨h, rfl⟩
  unrefusable := nofun
  returns := nofun
  asserted := nofun

theorem of_admitted {run : ρ} (hnone : ∀ fault, ¬ refuses fault)
    (hreturns : ¬ asserts → ∃ answer, kernel run = .ok answer)
    (hasserted : asserts → kernel run = .error .assertion) :
    FailsOnlyInChecks refuses asserts (.ok run) kernel (kernel run) where
  refused := by
    intro fault hfault
    cases hfault
  unrefusable := fun _ _ => hnone
  returns := by
    intro found hfound hnot
    cases hfound
    obtain ⟨answer, hanswer⟩ := hreturns hnot
    exact ⟨answer, hanswer, hanswer⟩
  asserted := by
    intro found hfound hyes
    cases hfound
    exact ⟨hasserted hyes, hasserted hyes⟩

/-- **A call of which the cell is looked at first and the other checks next**: it is enough that those
fault for their reasons only, and that what passes them is answered. -/
theorem of_checks {admitted chosen : Outcome ρ} {checks : Outcome Unit}
    (hne : depth.storage ≠ s → admitted = .error (.violation (.wrongStorage depth s)))
    (hstorage : depth.storage ≠ s → refuses (.violation (.wrongStorage depth s)))
    (heq : depth.storage = s → admitted = (do checks; chosen)) (hfaults : FaultsWithin refuses checks)
    (hpassed : depth.storage = s → checks = .ok () → (∀ fault, ¬ refuses fault) ∧
      ∃ run, chosen = .ok run ∧ (¬ asserts → ∃ answer, kernel run = .ok answer) ∧
        (asserts → kernel run = .error .assertion)) :
    FailsOnlyInChecks refuses asserts admitted kernel (admitted >>= kernel) := by
  by_cases hdepth : depth.storage = s
  · rw [heq hdepth]
    cases hchecks : checks with
    | error fault => exact of_refused (hfaults fault hchecks)
    | ok _ =>
      obtain ⟨hnone, run, hrun, hreturns, hasserted⟩ := hpassed hdepth hchecks
      rw [Outcome.ok_bind, hrun]
      exact of_admitted hnone hreturns hasserted
  · rw [hne hdepth]
    exact of_refused (hstorage hdepth)

end FailsOnlyInChecks

/-! ## §6. The entry points. -/

namespace Kernels

/-- The assertion that is left to a kernel: the portable kernel for four references runs, because it is
selected or because what is selected gets no token, and is called with strides that differ. -/
def AssertsStride (kernels : Kernels) (summons : Bool) (depth : Depth) (block : BlockSize)
    (references : Vector (Plane s) 4) : Prop :=
  (kernels.selectedName s depth ⟨.sadX4, block⟩ = some portableName ∨ summons = false) ∧
    ∃ p ∈ references, ∃ q ∈ references, p.stride ≠ q.stride

section EntryPoints

variable {kernels : Kernels} {processor : Processor} (h : kernels.Selects processor)
include h

theorem sad_failsOnlyInChecks (source reference : Plane s) :
    FailsOnlyInChecks
      (RefusesCost .sad depth block [(.source, source), (.reference, reference)] none) False
      (kernels.admitSad depth block source reference) (fun run => run source reference)
      (kernels.sad depth block source reference) := by
  refine .of_checks (admitSad_of_ne kernels · source reference) .storage
    (admitSad_eq h · source reference) faultsWithin_pair ?_
  intro hdepth hchecks
  obtain ⟨hs, hr⟩ := requirePair_eq_ok_iff.mp hchecks
  exact ⟨not_refusesCost hdepth rfl (by simp [hs, hr]) fun _ => not_refusesSecond_of_mem_none, _, rfl,
    fun _ => ⟨_, run_sad processor hs hr⟩, False.elim⟩

theorem sadBounded_failsOnlyInChecks (source reference : Plane s) (bound : Nat) :
    FailsOnlyInChecks
      (RefusesCost .sadBounded depth block [(.source, source), (.reference, reference)] none) False
      (kernels.admitSadBounded depth block source reference) (fun run => run source reference bound)
      (kernels.sadBounded depth block source reference bound) := by
  refine .of_checks (admitSadBounded_of_ne kernels · source reference) .storage
    (admitSadBounded_eq h · source reference) faultsWithin_checkSadBounded ?_
  intro hdepth hchecks
  obtain ⟨hblock, hs, hr⟩ := checkSadBounded_eq_ok_iff.mp hchecks
  obtain ⟨answer, hanswer, _⟩ := run_sadBounded processor hs hr bound
  exact ⟨not_refusesCost hdepth hblock (by simp [hs, hr]) fun _ => not_refusesSecond_of_mem_none, _, rfl,
    fun _ => ⟨answer, hanswer⟩, False.elim⟩

theorem sadX4_failsOnlyInChecks (source : Plane s) (references : Vector (Plane s) 4) :
    FailsOnlyInChecks
      (RefusesCost .sadX4 depth block
        ((.source, source) :: references.toList.map fun reference => (.reference, reference)) none)
      (kernels.AssertsStride processor.summons depth block references)
      (kernels.admitSadX4 depth block source references) (fun run => run source references)
      (kernels.sadX4 depth block source references) := by
  refine .of_checks (admitSadX4_of_ne kernels · source references) .storage
    (admitSadX4_eq h · source references) faultsWithin_checkSadX4 ?_
  intro hdepth hchecks
  obtain ⟨hs, hr⟩ := checkSadX4_eq_ok_iff.mp hchecks
  -- the kernel asserts exactly if it is the portable one that runs and the strides differ
  have hasserts : kernels.AssertsStride processor.summons depth block references
      ↔ ¬ (runsWide processor block ∨ Sad.Portable.commonStride references) := by
    rw [AssertsStride, selectedName_eq_portableName h hdepth, ← Bool.and_eq_false_iff, ← runsWide,
      ← Sad.Portable.commonStride_eq_false_iff, not_or, Bool.not_eq_true, Bool.not_eq_true]
  refine ⟨not_refusesCost hdepth rfl ?_ fun _ => not_refusesSecond_of_mem_none, _, rfl, ?_, ?_⟩
  · simpa [hs] using hr
  · intro hnot
    exact ⟨_, (run_sadX4 processor hs hr).trans (if_pos (not_not.mp (mt hasserts.mpr hnot)))⟩
  · intro hyes
    exact (run_sadX4 processor hs hr).trans (if_neg (hasserts.mp hyes))

theorem sadAvg_failsOnlyInChecks (source reference : Plane s) (second : Array (Sample s)) :
    FailsOnlyInChecks
      (RefusesCost .sadAvg depth block [(.source, source), (.reference, reference)] (some second)) False
      (kernels.admitSadAvg depth block source reference second)
      (fun run => run source reference second)
      (kernels.sadAvg depth block source reference second) := by
  refine .of_checks (admitSadAvg_of_ne kernels · source reference second) .storage
    (admitSadAvg_eq h · source reference second) faultsWithin_checkSadAvg ?_
  intro hdepth hchecks
  obtain ⟨hblock, hs, hr, hcover, hsecond⟩ := checkSadAvg_eq_ok_iff.mp hchecks
  refine ⟨not_refusesCost hdepth hblock (by simp [hs, hr]) ?_, _, rfl,
    fun _ => ⟨_, run_sadAvg processor hs hr hcover hsecond⟩, False.elim⟩
  rintro samples hin
  obtain rfl := Option.some.inj hin
  exact not_refusesSecond hcover hsecond

omit h in
/-- The outcome of a prediction is that of its checks and then that of its kernel. -/
theorem outcome_predictIntra (kernels : Kernels) (depth : Depth) (block : BlockSize) (mode : IntraMode)
    (destination : Plane s) (edge : IntraEdge s) :
    (kernels.predictIntra depth block mode destination edge).outcome
      = kernels.admitPrediction depth block mode destination edge >>= fun (run, max) =>
          (run destination edge max).outcome := by
  unfold predictIntra
  cases kernels.admitPrediction depth block mode destination edge with
  | error fault => rfl
  | ok admitted => rfl

/-- A predictor is told the maximum of its table, which is the maximum of the depth. -/
theorem max_of_admitPrediction {mode : IntraMode} {destination : Plane s} {edge : IntraEdge s}
    {run : IntraFn s} {max : Nat}
    (hrun : kernels.admitPrediction depth block mode destination edge = .ok (run, max)) :
    max = depth.max := by
  by_cases hdepth : depth.storage = s
  · obtain ⟨table, -, heq⟩ := admitPrediction_eq h hdepth mode destination edge
    rw [heq] at hrun
    obtain ⟨-, -, hrun⟩ := Outcome.bind_eq_ok_iff.mp hrun
    obtain ⟨found, -, hpair⟩ := Outcome.bind_eq_ok_iff.mp hrun
    exact (congrArg Prod.snd (Except.ok.inj hpair)).symm
  · rw [admitPrediction_of_ne kernels hdepth] at hrun
    cases hrun

theorem predictIntra_failsOnlyInChecks (mode : IntraMode) (destination : Plane s)
    (edge : IntraEdge s) :
    FailsOnlyInChecks (RefusesPrediction depth block mode destination edge) False
      (kernels.admitPrediction depth block mode destination edge)
      (fun (run, max) => (run destination edge max).outcome)
      (kernels.predictIntra depth block mode destination edge).outcome := by
  rw [outcome_predictIntra]
  by_cases hdepth : depth.storage = s
  · obtain ⟨table, hholds, hadmit⟩ := admitPrediction_eq h hdepth mode destination edge
    refine .of_checks (absurd hdepth) .storage (fun _ => hadmit) faultsWithin_checkPrediction ?_
    intro _ hchecks
    obtain ⟨hblock, hfits, hsupplies⟩ := admits_of_checkPrediction hchecks
    obtain ⟨run, hrun, hintra⟩ := Table.intraAt_of_supports hholds hblock
    obtain ⟨hsquare, _, hside⟩ := KernelKind.intra_supports hblock
    have hedge := check_eq_ok_iff.mpr ⟨hblock, hsupplies.above_size, hsupplies.left_size⟩
    have hpainted := (Plane.paint_predicted_of_fits (edge.kernelFor mode) edge depth.max
      (show block.width < 2 ^ 63 by omega) hfits).1
    rw [← run_intra hintra hblock hdepth hsupplies hfits] at hpainted
    have hroom : destination.fits block.width block.height = .ok true := by rw [hsquare]; exact hfits
    exact ⟨not_refusesPrediction hdepth hedge hroom hsupplies, (run, depth.max), by rw [hrun]; rfl,
      fun _ => ⟨(), hpainted⟩, False.elim⟩
  · rw [admitPrediction_of_ne kernels hdepth]
    exact .of_refused (.storage hdepth)

/-- A prediction that fails has written nothing. -/
theorem buffer_predictIntra_of_error {mode : IntraMode} {destination : Plane s} {edge : IntraEdge s}
    {fault : Fault}
    (hfault : (kernels.predictIntra depth block mode destination edge).outcome = .error fault) :
    (kernels.predictIntra depth block mode destination edge).buffer = destination.data := by
  cases hadmit : kernels.admitPrediction depth block mode destination edge with
  | error cause =>
    rw [predictIntra, hadmit]
    rfl
  | ok admitted =>
    obtain ⟨_, _, hanswer⟩ :=
      (predictIntra_failsOnlyInChecks h mode destination edge).returns admitted hadmit not_false
    rw [hfault] at hanswer
    cases hanswer

end EntryPoints

end Kernels

/-! ## §7. Any level. -/

/-- No call of a bundle fails anywhere but in its checks, or in the one assertion that is left to the
portable kernel for four references. -/
structure Kernels.SafeBeyondChecks (kernels : Kernels) (summons : Bool) (s : Storage) (depth : Depth)
    (block : BlockSize) : Prop where
  sad : ∀ source reference : Plane s,
    FailsOnlyInChecks
      (RefusesCost .sad depth block [(.source, source), (.reference, reference)] none) False
      (kernels.admitSad depth block source reference) (fun run => run source reference)
      (kernels.sad depth block source reference)
  sadBounded : ∀ (source reference : Plane s) (bound : Nat),
    FailsOnlyInChecks
      (RefusesCost .sadBounded depth block [(.source, source), (.reference, reference)] none) False
      (kernels.admitSadBounded depth block source reference) (fun run => run source reference bound)
      (kernels.sadBounded depth block source reference bound)
  sadX4 : ∀ (source : Plane s) (references : Vector (Plane s) 4),
    FailsOnlyInChecks
      (RefusesCost .sadX4 depth block
        ((.source, source) :: references.toList.map fun reference => (.reference, reference)) none)
      (kernels.AssertsStride summons depth block references)
      (kernels.admitSadX4 depth block source references) (fun run => run source references)
      (kernels.sadX4 depth block source references)
  sadAvg : ∀ (source reference : Plane s) (second : Array (Sample s)),
    FailsOnlyInChecks
      (RefusesCost .sadAvg depth block [(.source, source), (.reference, reference)] (some second)) False
      (kernels.admitSadAvg depth block source reference second)
      (fun run => run source reference second)
      (kernels.sadAvg depth block source reference second)
  predictIntra : ∀ (mode : IntraMode) (destination : Plane s) (edge : IntraEdge s),
    FailsOnlyInChecks (RefusesPrediction depth block mode destination edge) False
      (kernels.admitPrediction depth block mode destination edge)
      (fun (run, max) => (run destination edge max).outcome)
      (kernels.predictIntra depth block mode destination edge).outcome
  /-- A predictor that is let through is told the maximum of the depth. -/
  maximum : ∀ (mode : IntraMode) (destination : Plane s) (edge : IntraEdge s) (run : IntraFn s)
    (max : Nat), kernels.admitPrediction depth block mode destination edge = .ok (run, max) →
      max = depth.max
  /-- A prediction that fails has written nothing. -/
  untouched : ∀ (mode : IntraMode) (destination : Plane s) (edge : IntraEdge s) (fault : Fault),
    (kernels.predictIntra depth block mode destination edge).outcome = .error fault →
      (kernels.predictIntra depth block mode destination edge).buffer = destination.data

/-- **At every level every call fails in its checks or not at all**, but for the strides that the
portable kernel for four references asks for, whether it was selected or runs for want of a token. -/
theorem calls_fail_only_in_checks (processor : Processor) (level : CpuLevel) :
    ∃ kernels, Kernels.atLevel processor level = .ok kernels ∧
      ∀ (s : Storage) (depth : Depth) (block : BlockSize),
        kernels.SafeBeyondChecks processor.summons s depth block := by
  obtain ⟨kernels, hkernels, hselects⟩ := Kernels.atLevel_selects processor level
  refine ⟨kernels, hkernels, ?_⟩
  intro s depth block
  -- a level takes capabilities away and leaves the token
  rw [← Processor.summons_upTo processor level]
  exact {
    sad := Kernels.sad_failsOnlyInChecks hselects
    sadBounded := Kernels.sadBounded_failsOnlyInChecks hselects
    sadX4 := Kernels.sadX4_failsOnlyInChecks hselects
    sadAvg := Kernels.sadAvg_failsOnlyInChecks hselects
    predictIntra := Kernels.predictIntra_failsOnlyInChecks hselects
    maximum := fun _ _ _ _ _ => Kernels.max_of_admitPrediction hselects
    untouched := fun _ _ _ _ => Kernels.buffer_predictIntra_of_error hselects }

end PixelKernels
