/-
  PixelKernels.Proofs.EntryPoints
  ───────────────────────────────
  **WHAT AN ENTRY POINT ANSWERS, IN ONE LINE EACH.**

  An entry point is its checks and then a kernel.  The checks do not look at
  the level.  What they let through, every kernel that a level can select
  answers alike: with the cost of the block, or with the predicted block.  So
  each entry point is its checks followed by that answer, and the capabilities
  of the bundle are gone from it (`sad_eq`, `sadAvg_eq`, `predictIntra_eq`).

  The one exception is the cost against four references, where the portable
  kernel alone asks for a common stride (`sadX4_eq`).
-/
import PixelKernels.Proofs.Bundles
import PixelKernels.Proofs.WideTerms

namespace PixelKernels

open Sad (cost mean packed)

variable {s : Storage}

/-! ## §1. What the checks let through. -/

namespace Kernels

/-- The samples of a block are in the range of the depth. -/
def InRange (depth : Depth) (block : BlockSize) (plane : Plane s) : Prop :=
  ∀ x < block.width, ∀ y < block.height, (plane.pixel x y).toNat ≤ depth.max

instance (depth : Depth) (block : BlockSize) (plane : Plane s) :
    Decidable (InRange depth block plane) :=
  inferInstanceAs (Decidable (∀ x < block.width, ∀ y < block.height, _))

/-- A byte cannot leave the range of eight bits. -/
theorem inRange_eight {block : BlockSize} (plane : Plane .byte) : InRange .eight block plane :=
  fun x _ y _ => Nat.le_of_lt_succ (plane.pixel x y).isLt

variable {depth : Depth} {block : BlockSize} {role : Role}

theorem requireHolds_eq_ok_iff {plane : Plane s} :
    requireHolds role block plane = .ok () ↔ plane.fits block.width block.height = .ok true := by
  unfold requireHolds
  rw [Outcome.bind_eq_ok_iff]
  constructor
  · rintro ⟨fits, hfits, hrequire⟩
    rw [hfits, Outcome.require_eq_ok_iff.mp hrequire]
  · intro hfits
    exact ⟨true, hfits, rfl⟩

theorem requireInRange_eq_ok_iff {samples : List (Sample s)} :
    requireInRange role depth samples = .ok () ↔ ∀ v ∈ samples, v.toNat ≤ depth.max := by
  unfold requireInRange
  cases hfind : samples.find? fun v => decide (depth.max < v.toNat) with
  | none =>
    have hnone := List.find?_eq_none.mp hfind
    simpa using hnone
  | some v =>
    have hlarge := List.find?_some hfind
    have hmem := List.mem_of_find?_eq_some hfind
    simp only [decide_eq_true_eq] at hlarge
    simp only [reduceCtorEq, false_iff, not_forall, not_le]
    exact ⟨v, hmem, hlarge⟩

theorem requireBlockInRange_eq_ok_iff {plane : Plane s}
    (h : plane.fits block.width block.height = .ok true) :
    requireBlockInRange role depth block plane = .ok () ↔ InRange depth block plane := by
  have hw := block.width_le
  have hh := block.height_le
  have hholds := Plane.holds_of_fits (by omega) (by omega) h
  have hforall := Outcome.forM_eq_ok_iff (l := List.range block.height)
    (f := fun y => plane.row y block.width >>= requireInRange role depth)
  refine Iff.trans hforall ?_
  constructor
  · intro hrows x hx y hy
    have hrow := hrows y (List.mem_range.mpr hy)
    rw [Plane.row_of_holds hholds hy, Outcome.ok_bind, requireInRange_eq_ok_iff] at hrow
    exact hrow _ (List.mem_map.mpr ⟨x, List.mem_range.mpr hx, rfl⟩)
  · intro hrange y hy
    have hy := List.mem_range.mp hy
    rw [Plane.row_of_holds hholds hy, Outcome.ok_bind, requireInRange_eq_ok_iff]
    intro v hv
    obtain ⟨x, hx, rfl⟩ := List.mem_map.mp hv
    exact hrange x (List.mem_range.mp hx) y hy

/-- What is known of a plane whose block passed both checks. -/
structure Admits (depth : Depth) (block : BlockSize) (plane : Plane s) : Prop where
  fits : plane.fits block.width block.height = .ok true
  inRange : InRange depth block plane

theorem Admits.holds {plane : Plane s} (h : Admits depth block plane) :
    plane.Holds block.width block.height := by
  have hw := block.width_le
  have hh := block.height_le
  exact Plane.holds_of_fits (by omega) (by omega) h.fits

theorem checks_iff_admits {plane : Plane s} :
    requireHolds role block plane = .ok () ∧ requireBlockInRange role depth block plane = .ok ()
      ↔ Admits depth block plane := by
  constructor
  · rintro ⟨hholds, hrange⟩
    have hfits := requireHolds_eq_ok_iff.mp hholds
    exact ⟨hfits, (requireBlockInRange_eq_ok_iff hfits).mp hrange⟩
  · intro h
    exact ⟨requireHolds_eq_ok_iff.mpr h.fits, (requireBlockInRange_eq_ok_iff h.fits).mpr h.inRange⟩

theorem requirePair_eq_ok_iff {source reference : Plane s} :
    requirePair depth block source reference = .ok ()
      ↔ Admits depth block source ∧ Admits depth block reference := by
  unfold requirePair
  simp only [Outcome.check_bind_eq_ok_iff]
  constructor
  · rintro ⟨hsource, hreference, hsourceRange, hreferenceRange⟩
    exact ⟨checks_iff_admits.mp ⟨hsource, hsourceRange⟩,
      checks_iff_admits.mp ⟨hreference, hreferenceRange⟩⟩
  · rintro ⟨hs, hr⟩
    obtain ⟨hsource, hsourceRange⟩ := checks_iff_admits.mpr hs
    obtain ⟨hreference, hreferenceRange⟩ := checks_iff_admits.mpr hr
    exact ⟨hsource, hreference, hsourceRange, hreferenceRange⟩

/-! ## §2. What a kernel answers to that. -/

/-- Distances of samples in range are far below the capacity of a signed 16-bit lane. -/
theorem distance_lt_of_le {a b : Sample s} (ha : a.toNat ≤ depth.max) (hb : b.toNat ≤ depth.max) :
    Sad.Portable.distance a.toNat b.toNat < 2 ^ 15 := by
  have hmax : depth.max ≤ 4095 := by cases depth <;> decide
  unfold Sad.Portable.distance
  omega

theorem width_of_runsWide {processor : Processor} (h : runsWide processor block = true) :
    block.width = 16 ∨ 32 ∣ block.width := by
  have hselected : usesWide processor.flags block = true := (Bool.and_eq_true_iff.mp h).1
  have hw : 16 ≤ block.width := of_decide_eq_true (Bool.and_eq_true_iff.mp hselected).2
  cases block <;> simp [BlockSize.width] at hw ⊢

/-- **Both cost kernels answer a call that is let through with the cost of the block.** -/
theorem run_sad (processor : Processor) {source reference : Plane s} (hs : Admits depth block source)
    (hr : Admits depth block reference) :
    (if runsWide processor block then Sad.Wide.sad block.width block.height
      else Sad.Portable.sad block.width block.height) source reference
      = .ok (cost block.width block.height source.pixel reference.pixel) := by
  by_cases hwide : runsWide processor block = true
  · -- samples in range keep every distance inside a signed lane
    rw [if_pos hwide, Sad.Wide.sad_of_fits_eq_total block.width_le block.height_le hs.fits hr.fits,
      Sad.Wide.total_blockAccumulator (width_of_runsWide hwide) block.width_le block.height_le
        fun x hx y hy => distance_lt_of_le (hs.inRange x hx y hy) (hr.inRange x hx y hy)]
  · rw [if_neg hwide, Sad.Portable.sad_of_fits block.width_le block.height_le hs.fits hr.fits]

/-- A second predictor that covers the block is in range exactly if its first samples are, taken as
rows. -/
theorem requirePackedInRange_eq_ok_iff {second : Array (Sample s)} (hcover : block.area ≤ second.size) :
    (slice second 0 block.area >>= requireInRange role depth) = .ok ()
      ↔ ∀ x < block.width, ∀ y < block.height,
          (packed block.width second x y).toNat ≤ depth.max := by
  rw [slice_eq_map_range (by omega) 0, Outcome.ok_bind, requireInRange_eq_ok_iff]
  simp only [List.forall_mem_map, List.mem_range, Nat.zero_add]
  constructor
  · intro hflat x hx y hy
    have hrow : y * block.width + block.width ≤ block.area := Sad.packed_row_le hy
    exact hflat (y * block.width + x) (by omega)
  · -- a position in the block is a column of a row
    intro hrows i hi
    have hread := hrows (i % block.width) (Nat.mod_lt i block.width_pos) (i / block.width)
      (Nat.div_lt_of_lt_mul hi)
    rwa [packed, Nat.div_add_mod'] at hread

/-- **Both averaging kernels answer with the cost against the averaged block.** -/
theorem run_sadAvg (processor : Processor) {source reference : Plane s} {second : Array (Sample s)}
    (hs : Admits depth block source) (hr : Admits depth block reference)
    (hcover : block.area ≤ second.size)
    (hsecond : ∀ x < block.width, ∀ y < block.height,
      (packed block.width second x y).toNat ≤ depth.max) :
    (if runsWide processor block then Sad.Wide.sadAvg block.width block.height
      else Sad.Portable.sadAvg block.width block.height) source reference second
      = .ok (cost block.width block.height source.pixel
          fun x y => mean (reference.pixel x y) (packed block.width second x y)) := by
  by_cases hwide : runsWide processor block = true
  · -- an average of samples in range is in range
    have hmean : ∀ x < block.width, ∀ y < block.height,
        (mean (reference.pixel x y) (packed block.width second x y)).toNat ≤ depth.max := by
      intro x hx y hy
      have hreference := hr.inRange x hx y hy
      have hpredictor := hsecond x hx y hy
      rw [Sad.toNat_mean]
      omega
    rw [if_pos hwide,
      Sad.Wide.sadAvg_of_fits_eq_total block.width_le block.height_le hs.fits hr.fits hcover,
      Sad.Wide.total_blockAccumulator (width_of_runsWide hwide) block.width_le block.height_le
        fun x hx y hy => distance_lt_of_le (hs.inRange x hx y hy) (hmean x hx y hy)]
  · rw [if_neg hwide,
      Sad.Portable.sadAvg_of_fits block.width_le block.height_le hs.fits hr.fits hcover]

/-- Planes that are let through are let through by the assertions of the wide kernel too, so without a
token nothing is left of it but the portable kernel. -/
theorem run_sadX4WithoutToken {source : Plane s} {references : Vector (Plane s) 4}
    (hs : Admits depth block source) (hr : ∀ reference ∈ references, Admits depth block reference) :
    sadX4WithoutToken block.width block.height source references
      = Sad.Portable.sadX4 block.width block.height source references := by
  have hfits : (references.forM fun reference => reference.assertFits block.width block.height)
      = .ok () :=
    Outcome.forM_vector_eq_ok_iff.mpr fun reference hin =>
      Plane.assertFits_of_fits (hr reference hin).fits
  rw [sadX4WithoutToken, Plane.assertFits_of_fits hs.fits, Outcome.ok_bind, hfits, Outcome.ok_bind]

/-- On planes that are let through, a table runs the wide kernel or the portable one. -/
theorem sadX4Kernel_eq (processor : Processor) {source : Plane s} {references : Vector (Plane s) 4}
    (hs : Admits depth block source) (hr : ∀ reference ∈ references, Admits depth block reference) :
    sadX4Kernel processor block source references
      = if runsWide processor block then Sad.Wide.sadX4 block.width block.height source references
        else Sad.Portable.sadX4 block.width block.height source references := by
  unfold sadX4Kernel runsWide
  cases usesWide processor.flags block with
  | false => rfl
  | true =>
    cases processor.summons with
    | false => exact run_sadX4WithoutToken hs hr
    | true => rfl

/-- **Against four references the wide kernel always answers, and the portable one if their strides
agree.** -/
theorem run_sadX4 (processor : Processor) {source : Plane s} {references : Vector (Plane s) 4}
    (hs : Admits depth block source) (hr : ∀ reference ∈ references, Admits depth block reference) :
    sadX4Kernel processor block source references
      = if runsWide processor block ∨ Sad.Portable.commonStride references then
          .ok (references.map fun reference =>
            cost block.width block.height source.pixel reference.pixel)
        else .error .assertion := by
  have hfits : ∀ reference ∈ references, reference.fits block.width block.height = .ok true :=
    fun reference hin => (hr reference hin).fits
  rw [sadX4Kernel_eq processor hs hr]
  by_cases hwide : runsWide processor block = true
  · rw [if_pos hwide, if_pos (.inl hwide),
      Sad.Wide.sadX4_of_fits_eq_total block.width_le block.height_le hs.fits hfits]
    apply congrArg Except.ok
    apply Vector.map_congr_left
    intro reference hin
    exact Sad.Wide.total_blockAccumulator (width_of_runsWide hwide) block.width_le block.height_le
      fun x hx y hy => distance_lt_of_le (hs.inRange x hx y hy) ((hr reference hin).inRange x hx y hy)
  · rw [if_neg hwide]
    by_cases hstride : Sad.Portable.commonStride references = true
    · rw [if_pos (.inr hstride),
        Sad.Portable.sadX4_of_fits block.width_le block.height_le hs.fits hfits hstride]
    · -- the assertion on the strides comes before anything else
      rw [if_neg (by tauto), Sad.Portable.sadX4, eq_false_of_ne_true hstride]
      rfl

theorem max_mem_maxima (hdepth : depth.storage = s) : depth.max ∈ s.maxima := by
  subst hdepth
  cases depth <;> decide

/-- **Every predictor that the library has for a kernel writes the predicted block.** -/
theorem run_intra {kernel : IntraKernel} {run : IntraFn s} {destination : Plane s}
    {edge : IntraEdge s} (hrun : IsIntraKernel kernel block run)
    (hblock : (KernelKind.intra kernel).supports block = true) (hdepth : depth.storage = s)
    (hsupplies : edge.Supplies kernel block.width depth.max)
    (hfits : destination.fits block.width block.width = .ok true) :
    run destination edge depth.max
      = destination.paint (Intra.predicted kernel block.width edge depth.max) := by
  have hmax := max_mem_maxima hdepth
  rcases hrun with rfl | ⟨hwide, hside⟩
  · exact Intra.Portable.predict_of_fits (Intra.isSide_of_supports hblock) hmax hsupplies hfits
  · exact Intra.Wide.predict_of_fits hwide hside hmax hsupplies hfits

/-! ## §3. Checks without a level. -/

/-- Everything that is checked before a bounded sum, in a cell that stores the depth. -/
def checkSadBounded (depth : Depth) (block : BlockSize) (source reference : Plane s) :
    Outcome Unit := do
  Outcome.require (KernelKind.sadBounded.supports block) (.violation (.noKernel .sadBounded block))
  requirePair depth block source reference

theorem checkSadBounded_eq_ok_iff {source reference : Plane s} :
    checkSadBounded depth block source reference = .ok ()
      ↔ KernelKind.sadBounded.supports block = true ∧
        Admits depth block source ∧ Admits depth block reference := by
  unfold checkSadBounded
  rw [Outcome.check_bind_eq_ok_iff, Outcome.require_eq_ok_iff, requirePair_eq_ok_iff]

/-- Everything that is checked before a sum against an average, in a cell that stores the depth. -/
def checkSadAvg (depth : Depth) (block : BlockSize) (source reference : Plane s)
    (second : Array (Sample s)) : Outcome Unit := do
  Outcome.require (KernelKind.sadAvg.supports block) (.violation (.noKernel .sadAvg block))
  requireHolds .source block source
  requireHolds .reference block reference
  requireCovers block second
  requireBlockInRange .source depth block source
  requireBlockInRange .reference depth block reference
  requireInRange .secondPredictor depth (← slice second 0 block.area)

/-- For a second predictor that covers the block, these are the checks of a plain sum and one more. -/
theorem checkSadAvg_of_covers {source reference : Plane s} {second : Array (Sample s)}
    (hblock : KernelKind.sadAvg.supports block = true) (hcover : block.area ≤ second.size) :
    checkSadAvg depth block source reference second = (do
      requirePair depth block source reference
      requireInRange .secondPredictor depth (← slice second 0 block.area)) := by
  have hcovers : requireCovers block second = .ok () :=
    Outcome.require_eq_ok_iff.mpr (decide_eq_true hcover)
  unfold checkSadAvg requirePair
  simp only [hblock, hcovers, Outcome.require_true, Outcome.ok_bind, bind_assoc]

theorem checkSadAvg_eq_ok_iff {source reference : Plane s} {second : Array (Sample s)} :
    checkSadAvg depth block source reference second = .ok ()
      ↔ KernelKind.sadAvg.supports block = true ∧ Admits depth block source ∧
        Admits depth block reference ∧ block.area ≤ second.size ∧
        ∀ x < block.width, ∀ y < block.height,
          (packed block.width second x y).toNat ≤ depth.max := by
  constructor
  · intro h
    -- the size and the length are checked on the way
    have hpart := h
    unfold checkSadAvg requireCovers at hpart
    simp only [Outcome.check_bind_eq_ok_iff, Outcome.require_eq_ok_iff, decide_eq_true_eq] at hpart
    obtain ⟨hblock, _, _, hcover, _⟩ := hpart
    rw [checkSadAvg_of_covers hblock hcover, Outcome.check_bind_eq_ok_iff, requirePair_eq_ok_iff,
      requirePackedInRange_eq_ok_iff hcover] at h
    exact ⟨hblock, h.1.1, h.1.2, hcover, h.2⟩
  · rintro ⟨hblock, hs, hr, hcover, hsecond⟩
    rw [checkSadAvg_of_covers hblock hcover, Outcome.check_bind_eq_ok_iff, requirePair_eq_ok_iff,
      requirePackedInRange_eq_ok_iff hcover]
    exact ⟨⟨hs, hr⟩, hsecond⟩

/-- Everything that is checked before sums against four references, in a cell that stores the
depth. -/
def checkSadX4 (depth : Depth) (block : BlockSize) (source : Plane s)
    (references : Vector (Plane s) 4) : Outcome Unit := do
  requireHolds .source block source
  requireBlockInRange .source depth block source
  references.forM fun reference => do
    requireHolds .reference block reference
    requireBlockInRange .reference depth block reference

theorem checkSadX4_eq_ok_iff {source : Plane s} {references : Vector (Plane s) 4} :
    checkSadX4 depth block source references = .ok ()
      ↔ Admits depth block source ∧ ∀ reference ∈ references, Admits depth block reference := by
  have hreferences := Outcome.forM_vector_eq_ok_iff (v := references) (f := fun reference => do
    requireHolds .reference block reference
    requireBlockInRange .reference depth block reference)
  simp only [Outcome.check_bind_eq_ok_iff, checks_iff_admits] at hreferences
  unfold checkSadX4
  rw [Outcome.check_bind_eq_ok_iff, Outcome.check_bind_eq_ok_iff, ← and_assoc, checks_iff_admits]
  exact and_congr_right fun _ => hreferences

/-- Everything that is checked before a prediction, in a cell that stores the depth. -/
def checkPrediction (depth : Depth) (block : BlockSize) (mode : IntraMode) (destination : Plane s)
    (edge : IntraEdge s) : Outcome Unit :=
  match edge.check (edge.kernelFor mode) block with
  | .error cause => .error (.violation (.predictionRefused mode block cause))
  | .ok () => do
      Outcome.require (← destination.fits block.width block.height)
        (.violation (.destinationTooSmall block))
      requireEdgeInRange depth (edge.kernelFor mode) block.width edge

theorem check_eq_ok_iff {edge : IntraEdge s} {kernel : IntraKernel} :
    edge.check kernel block = .ok () ↔ (KernelKind.intra kernel).supports block = true ∧
      kernel.aboveLength block.width ≤ edge.above.size ∧
        kernel.leftLength block.width ≤ edge.left.size := by
  unfold IntraEdge.check KernelKind.check
  -- the size is checked first, then the samples above, then those to the left
  by_cases hblock : (KernelKind.intra kernel).supports block = true
  · by_cases habove : edge.above.size < kernel.aboveLength block.width
    · simp [hblock, habove, bind, Except.bind, throw, throwThe, MonadExceptOf.throw]
    · by_cases hleft : edge.left.size < kernel.leftLength block.width
      · simp [hblock, habove, hleft, bind, Except.bind, throw, throwThe, MonadExceptOf.throw]
      · simp [hblock, habove, hleft, bind, Except.bind, pure, Except.pure]
        omega
  · simp [hblock, bind, Except.bind]

theorem requireEdgeInRange_eq_ok_iff {edge : IntraEdge s} {kernel : IntraKernel} {n : Nat}
    (habove : kernel.aboveLength n ≤ edge.above.size) (hleft : kernel.leftLength n ≤ edge.left.size) :
    requireEdgeInRange depth kernel n edge = .ok () ↔ edge.Supplies kernel n depth.max := by
  have hread : ∀ (role : Role) (k : Nat) (samples : Array (Sample s)),
      requireInRange role depth ((List.range k).map fun i => samples.getD i 0) = .ok ()
        ↔ ∀ i < k, (samples.getD i 0).toNat ≤ depth.max := by
    intro role k samples
    rw [requireInRange_eq_ok_iff]
    simp
  unfold requireEdgeInRange
  rw [IntraEdge.aboveRow_of_le habove, IntraEdge.leftColumn_of_le hleft]
  -- the corner is checked only for the kernels that read it
  by_cases hreads : kernel.readsTopLeft = true
  · have hcorner : requireInRange .topLeft depth [edge.topLeft] = .ok ()
        ↔ edge.topLeft.toNat ≤ depth.max := by
      rw [requireInRange_eq_ok_iff, List.forall_mem_singleton]
    simp only [if_pos hreads, Outcome.ok_bind, Outcome.bind_eq_ok_iff, exists_const, hread, hcorner]
    constructor
    · rintro ⟨htopLeft, hrow, hcolumn⟩
      exact ⟨habove, hleft, hrow, hcolumn, fun _ => htopLeft⟩
    · intro h
      exact ⟨h.corner_le hreads, h.above_le, h.left_le⟩
  · simp only [if_neg hreads, Outcome.ok_bind, Outcome.bind_eq_ok_iff, exists_const, hread]
    constructor
    · rintro ⟨hrow, hcolumn⟩
      exact ⟨habove, hleft, hrow, hcolumn, fun hcorner => absurd hcorner hreads⟩
    · intro h
      exact ⟨h.above_le, h.left_le⟩

/-- What is known of a prediction that is let through. -/
theorem admits_of_checkPrediction {mode : IntraMode} {destination : Plane s} {edge : IntraEdge s}
    (h : checkPrediction depth block mode destination edge = .ok ()) :
    (KernelKind.intra (edge.kernelFor mode)).supports block = true ∧
      destination.fits block.width block.width = .ok true ∧
        edge.Supplies (edge.kernelFor mode) block.width depth.max := by
  cases hcheck : edge.check (edge.kernelFor mode) block with
  | error cause =>
    simp only [checkPrediction, hcheck, reduceCtorEq] at h
  | ok _ =>
    simp only [checkPrediction, hcheck, Outcome.bind_eq_ok_iff] at h
    obtain ⟨fits, hfits, _, hrequire, hrange⟩ := h
    obtain ⟨hblock, habove, hleft⟩ := check_eq_ok_iff.mp hcheck
    have hsquare := (KernelKind.intra_supports hblock).1
    rw [Outcome.require_eq_ok_iff.mp hrequire, hsquare] at hfits
    exact ⟨hblock, hfits, (requireEdgeInRange_eq_ok_iff habove hleft).mp hrange⟩

/-- With a border that supplies the kernel, the fit is the one check left. -/
theorem checkPrediction_of_supplies {mode : IntraMode} {destination : Plane s} {edge : IntraEdge s}
    (hblock : (KernelKind.intra .dc).supports block = true)
    (hsupplies : edge.Supplies (edge.kernelFor mode) block.width depth.max) :
    checkPrediction depth block mode destination edge
      = (do Outcome.require (← destination.fits block.width block.height)
              (.violation (.destinationTooSmall block))) := by
  have hedge : edge.check (edge.kernelFor mode) block = .ok () :=
    check_eq_ok_iff.mpr ⟨hblock, hsupplies.above_size, hsupplies.left_size⟩
  have hrange : requireEdgeInRange depth (edge.kernelFor mode) block.width edge = .ok () :=
    (requireEdgeInRange_eq_ok_iff hsupplies.above_size hsupplies.left_size).mpr hsupplies
  unfold checkPrediction
  simp only [hedge, hrange]
  cases destination.fits block.width block.height with
  | error fault => rfl
  | ok fits => cases fits <;> rfl

/-! ## §4. Cells that do not store the depth. -/

section WrongStorage

variable (kernels : Kernels) (h : depth.storage ≠ s)
include h

theorem admitSad_of_ne (source reference : Plane s) :
    kernels.admitSad depth block source reference = .error (.violation (.wrongStorage depth s)) := by
  rw [admitSad, table_of_ne kernels h]
  rfl

theorem admitSadBounded_of_ne (source reference : Plane s) :
    kernels.admitSadBounded depth block source reference
      = .error (.violation (.wrongStorage depth s)) := by
  rw [admitSadBounded, table_of_ne kernels h]
  rfl

theorem admitSadX4_of_ne (source : Plane s) (references : Vector (Plane s) 4) :
    kernels.admitSadX4 depth block source references
      = .error (.violation (.wrongStorage depth s)) := by
  rw [admitSadX4, table_of_ne kernels h]
  rfl

theorem admitSadAvg_of_ne (source reference : Plane s) (second : Array (Sample s)) :
    kernels.admitSadAvg depth block source reference second
      = .error (.violation (.wrongStorage depth s)) := by
  rw [admitSadAvg, table_of_ne kernels h]
  rfl

theorem admitPrediction_of_ne (mode : IntraMode) (destination : Plane s) (edge : IntraEdge s) :
    kernels.admitPrediction depth block mode destination edge
      = .error (.violation (.wrongStorage depth s)) := by
  rw [admitPrediction, table_of_ne kernels h]
  rfl

theorem sad_of_ne (source reference : Plane s) :
    kernels.sad depth block source reference = .error (.violation (.wrongStorage depth s)) := by
  rw [sad, admitSad_of_ne kernels h]
  rfl

theorem sadBounded_of_ne (source reference : Plane s) (bound : Nat) :
    kernels.sadBounded depth block source reference bound
      = .error (.violation (.wrongStorage depth s)) := by
  rw [sadBounded, admitSadBounded_of_ne kernels h]
  rfl

theorem sadX4_of_ne (source : Plane s) (references : Vector (Plane s) 4) :
    kernels.sadX4 depth block source references
      = .error (.violation (.wrongStorage depth s)) := by
  rw [sadX4, admitSadX4_of_ne kernels h]
  rfl

theorem sadAvg_of_ne (source reference : Plane s) (second : Array (Sample s)) :
    kernels.sadAvg depth block source reference second
      = .error (.violation (.wrongStorage depth s)) := by
  rw [sadAvg, admitSadAvg_of_ne kernels h]
  rfl

theorem predictIntra_of_ne (mode : IntraMode) (destination : Plane s) (edge : IntraEdge s) :
    kernels.predictIntra depth block mode destination edge
      = .refused destination.data (.violation (.wrongStorage depth s)) := by
  rw [predictIntra, admitPrediction_of_ne kernels h]

end WrongStorage

/-! ## §5. Entry points without a level. -/

section Answers

variable {kernels : Kernels} {processor : Processor} (h : kernels.Selects processor)
  (hdepth : depth.storage = s)
include h hdepth

theorem admitSad_eq (source reference : Plane s) :
    kernels.admitSad depth block source reference = (do
      requirePair depth block source reference
      pure (if runsWide processor block then Sad.Wide.sad block.width block.height
        else Sad.Portable.sad block.width block.height)) := by
  obtain ⟨table, htable, _, hholds⟩ := h hdepth
  rw [admitSad, htable, Outcome.ok_bind, Table.sadAt_eq hholds, Outcome.ok_bind]

/-- **A cost is its checks and then the cost of the block.** -/
theorem sad_eq (source reference : Plane s) :
    kernels.sad depth block source reference = (do
      requirePair depth block source reference
      pure (cost block.width block.height source.pixel reference.pixel)) := by
  rw [sad, admitSad_eq h hdepth]
  cases hchecks : requirePair depth block source reference with
  | error fault => rfl
  | ok _ =>
    obtain ⟨hs, hr⟩ := requirePair_eq_ok_iff.mp hchecks
    exact run_sad processor hs hr

/-- **A cost is answered exactly if both planes are let through, and then it is the cost of the
block.** -/
theorem sad_eq_ok_iff {source reference : Plane s} {answer : Nat} :
    kernels.sad depth block source reference = .ok answer
      ↔ (Admits depth block source ∧ Admits depth block reference) ∧
        cost block.width block.height source.pixel reference.pixel = answer := by
  rw [sad_eq h hdepth, Outcome.check_bind_eq_ok_iff, requirePair_eq_ok_iff]
  refine and_congr_right fun _ => ?_
  show (Except.ok (cost _ _ _ _) : Outcome Nat) = .ok answer ↔ _
  rw [Except.ok.injEq]

theorem admitSadBounded_eq (source reference : Plane s) :
    kernels.admitSadBounded depth block source reference = (do
      checkSadBounded depth block source reference
      pure (if runsWide processor block then Sad.Wide.sadBounded block.width block.height
        else Sad.Portable.sadBounded block.width block.height)) := by
  obtain ⟨table, htable, _, hholds⟩ := h hdepth
  rw [admitSadBounded, htable, Outcome.ok_bind, Table.sadBoundedAt_eq hholds, checkSadBounded]
  simp only [bind_assoc, pure_bind]

theorem admitSadAvg_eq (source reference : Plane s) (second : Array (Sample s)) :
    kernels.admitSadAvg depth block source reference second = (do
      checkSadAvg depth block source reference second
      pure (if runsWide processor block then Sad.Wide.sadAvg block.width block.height
        else Sad.Portable.sadAvg block.width block.height)) := by
  obtain ⟨table, htable, _, hholds⟩ := h hdepth
  rw [admitSadAvg, htable, Outcome.ok_bind, Table.sadAvgAt_eq hholds, checkSadAvg]
  simp only [bind_assoc, pure_bind]

/-- **A cost against an average is its checks and then the cost against the averaged block.** -/
theorem sadAvg_eq (source reference : Plane s) (second : Array (Sample s)) :
    kernels.sadAvg depth block source reference second = (do
      checkSadAvg depth block source reference second
      pure (cost block.width block.height source.pixel
        fun x y => mean (reference.pixel x y) (packed block.width second x y))) := by
  rw [sadAvg, admitSadAvg_eq h hdepth]
  cases hchecks : checkSadAvg depth block source reference second with
  | error fault => rfl
  | ok _ =>
    obtain ⟨_, hs, hr, hcover, hsecond⟩ := checkSadAvg_eq_ok_iff.mp hchecks
    exact run_sadAvg processor hs hr hcover hsecond

theorem sadAvg_of_admits (hblock : KernelKind.sadAvg.supports block = true)
    {source reference : Plane s} {second : Array (Sample s)} (hs : Admits depth block source)
    (hr : Admits depth block reference) (hcover : block.area ≤ second.size)
    (hsecond : ∀ x < block.width, ∀ y < block.height,
      (packed block.width second x y).toNat ≤ depth.max) :
    kernels.sadAvg depth block source reference second
      = .ok (cost block.width block.height source.pixel
          fun x y => mean (reference.pixel x y) (packed block.width second x y)) := by
  rw [sadAvg_eq h hdepth, checkSadAvg_eq_ok_iff.mpr ⟨hblock, hs, hr, hcover, hsecond⟩]
  rfl

theorem admitSadX4_eq (source : Plane s) (references : Vector (Plane s) 4) :
    kernels.admitSadX4 depth block source references = (do
      checkSadX4 depth block source references
      pure (sadX4Kernel processor block)) := by
  obtain ⟨table, htable, _, hholds⟩ := h hdepth
  rw [admitSadX4, htable, Outcome.ok_bind, Table.sadX4At_eq hholds, Outcome.ok_bind, checkSadX4]
  simp only [bind_assoc]

/-- **Costs against four references are their checks, the four costs, and the one condition that
the portable kernel adds.** -/
theorem sadX4_eq (source : Plane s) (references : Vector (Plane s) 4) :
    kernels.sadX4 depth block source references = (do
      checkSadX4 depth block source references
      if runsWide processor block ∨ Sad.Portable.commonStride references then
        pure (references.map fun reference =>
          cost block.width block.height source.pixel reference.pixel)
      else .error .assertion) := by
  rw [sadX4, admitSadX4_eq h hdepth]
  cases hchecks : checkSadX4 depth block source references with
  | error fault => rfl
  | ok _ =>
    obtain ⟨hs, hr⟩ := checkSadX4_eq_ok_iff.mp hchecks
    exact run_sadX4 processor hs hr

/-- What is admitted is the checks followed by the entry of a table with the default choices, to be run
with the maximum of the table, which is the maximum of the depth. -/
theorem admitPrediction_eq (mode : IntraMode) (destination : Plane s) (edge : IntraEdge s) :
    ∃ table : Table s, table.Holds (defaultChoice processor) ∧
      kernels.admitPrediction depth block mode destination edge = (do
        checkPrediction depth block mode destination edge
        pure (← table.intraAt (edge.kernelFor mode) block, depth.max)) := by
  obtain ⟨table, htable, htableDepth, hholds⟩ := h hdepth
  have hmax : table.max = depth.max := congrArg Depth.max htableDepth
  refine ⟨table, hholds, ?_⟩
  cases hcheck : edge.check (edge.kernelFor mode) block with
  | error cause =>
    simp only [admitPrediction, checkPrediction, htable, Outcome.ok_bind, hcheck]
    rfl
  | ok _ =>
    simp only [admitPrediction, checkPrediction, htable, Outcome.ok_bind, hcheck, bind_assoc, hmax]

/-- **A prediction is its checks and then the predicted block, written.** -/
theorem predictIntra_eq (mode : IntraMode) (destination : Plane s) (edge : IntraEdge s) :
    kernels.predictIntra depth block mode destination edge = destination.paintOutcome (do
      checkPrediction depth block mode destination edge
      pure (Intra.predicted (edge.kernelFor mode) block.width edge depth.max)) := by
  obtain ⟨table, hholds, hadmit⟩ := admitPrediction_eq h hdepth mode destination edge
  rw [predictIntra, hadmit]
  cases hchecks : checkPrediction depth block mode destination edge with
  | error fault => rfl
  | ok _ =>
    obtain ⟨hblock, hfits, hsupplies⟩ := admits_of_checkPrediction hchecks
    obtain ⟨run, hrun, hintra⟩ := Table.intraAt_of_supports hholds hblock
    rw [Outcome.ok_bind, hrun]
    exact run_intra hintra hblock hdepth hsupplies hfits

end Answers

/-! ## §6. What is admitted. -/

section Admitted

variable {kernels : Kernels} {processor : Processor} (h : kernels.Selects processor)

/-- Where a cell is looked at first and then the checks, a kernel is admitted exactly after both. -/
theorem admitted_iff {α : Type} {admitted : Outcome α} {checks : Outcome Unit} {chosen run : α}
    (hne : depth.storage ≠ s → admitted = .error (.violation (.wrongStorage depth s)))
    (heq : depth.storage = s → admitted = (do checks; pure chosen)) :
    admitted = .ok run ↔ depth.storage = s ∧ checks = .ok () ∧ chosen = run := by
  by_cases hdepth : depth.storage = s
  · rw [heq hdepth, Outcome.check_bind_eq_ok_iff, eq_true hdepth, true_and]
    refine and_congr_right fun _ => ?_
    show (Except.ok chosen : Outcome α) = .ok run ↔ _
    rw [Except.ok.injEq]
  · rw [hne hdepth, eq_false hdepth, false_and]
    exact iff_of_false (by simp) not_false

include h

theorem admitSad_iff {source reference : Plane s} {run : SadFn s} :
    kernels.admitSad depth block source reference = .ok run
      ↔ depth.storage = s ∧ requirePair depth block source reference = .ok () ∧
        (if runsWide processor block then Sad.Wide.sad block.width block.height
          else Sad.Portable.sad block.width block.height) = run :=
  admitted_iff (admitSad_of_ne kernels · source reference) (admitSad_eq h · source reference)

theorem admitSadBounded_iff {source reference : Plane s} {run : SadBoundedFn s} :
    kernels.admitSadBounded depth block source reference = .ok run
      ↔ depth.storage = s ∧ checkSadBounded depth block source reference = .ok () ∧
        (if runsWide processor block then Sad.Wide.sadBounded block.width block.height
          else Sad.Portable.sadBounded block.width block.height) = run :=
  admitted_iff (admitSadBounded_of_ne kernels · source reference)
    (admitSadBounded_eq h · source reference)

theorem admitSadX4_iff {source : Plane s} {references : Vector (Plane s) 4} {run : SadX4Fn s} :
    kernels.admitSadX4 depth block source references = .ok run
      ↔ depth.storage = s ∧ checkSadX4 depth block source references = .ok () ∧
        sadX4Kernel processor block = run :=
  admitted_iff (admitSadX4_of_ne kernels · source references) (admitSadX4_eq h · source references)

theorem admitSadAvg_iff {source reference : Plane s} {second : Array (Sample s)} {run : SadAvgFn s} :
    kernels.admitSadAvg depth block source reference second = .ok run
      ↔ depth.storage = s ∧ checkSadAvg depth block source reference second = .ok () ∧
        (if runsWide processor block then Sad.Wide.sadAvg block.width block.height
          else Sad.Portable.sadAvg block.width block.height) = run :=
  admitted_iff (admitSadAvg_of_ne kernels · source reference second)
    (admitSadAvg_eq h · source reference second)

/-- What a call that is let through is known to be called with. -/
theorem admits_of_admitSad {source reference : Plane s} {run : SadFn s}
    (hrun : kernels.admitSad depth block source reference = .ok run) :
    depth.storage = s ∧ Admits depth block source ∧ Admits depth block reference := by
  obtain ⟨hdepth, hchecks, _⟩ := (admitSad_iff h).mp hrun
  exact ⟨hdepth, requirePair_eq_ok_iff.mp hchecks⟩

/-- Planes that are let through are called with the kernel that the capabilities select. -/
theorem admitSad_of_admits (hdepth : depth.storage = s) {source reference : Plane s}
    (hs : Admits depth block source) (hr : Admits depth block reference) :
    kernels.admitSad depth block source reference
      = .ok (if runsWide processor block then Sad.Wide.sad block.width block.height
          else Sad.Portable.sad block.width block.height) :=
  (admitSad_iff h).mpr ⟨hdepth, requirePair_eq_ok_iff.mpr ⟨hs, hr⟩, rfl⟩

theorem admits_of_admitSadBounded {source reference : Plane s} {run : SadBoundedFn s}
    (hrun : kernels.admitSadBounded depth block source reference = .ok run) :
    depth.storage = s ∧ KernelKind.sadBounded.supports block = true ∧
      Admits depth block source ∧ Admits depth block reference := by
  obtain ⟨hdepth, hchecks, _⟩ := (admitSadBounded_iff h).mp hrun
  exact ⟨hdepth, checkSadBounded_eq_ok_iff.mp hchecks⟩

theorem admits_of_admitSadX4 {source : Plane s} {references : Vector (Plane s) 4} {run : SadX4Fn s}
    (hrun : kernels.admitSadX4 depth block source references = .ok run) :
    depth.storage = s ∧ Admits depth block source ∧
      ∀ reference ∈ references, Admits depth block reference := by
  obtain ⟨hdepth, hchecks, _⟩ := (admitSadX4_iff h).mp hrun
  exact ⟨hdepth, checkSadX4_eq_ok_iff.mp hchecks⟩

theorem admits_of_admitSadAvg {source reference : Plane s} {second : Array (Sample s)}
    {run : SadAvgFn s} (hrun : kernels.admitSadAvg depth block source reference second = .ok run) :
    depth.storage = s ∧ KernelKind.sadAvg.supports block = true ∧ Admits depth block source ∧
      Admits depth block reference ∧ block.area ≤ second.size ∧
      ∀ x < block.width, ∀ y < block.height,
        (Sad.packed block.width second x y).toNat ≤ depth.max := by
  obtain ⟨hdepth, hchecks, _⟩ := (admitSadAvg_iff h).mp hrun
  exact ⟨hdepth, checkSadAvg_eq_ok_iff.mp hchecks⟩

end Admitted

end Kernels

end PixelKernels
