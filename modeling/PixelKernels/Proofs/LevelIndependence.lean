/-
  PixelKernels.Proofs.LevelIndependence
  ─────────────────────────────────────
  **ONE ANSWER AT EVERY LEVEL, BUT FOR FOUR STRIDES.**

  Two bundles of one processor, at any two levels, answer every call alike:
  with the same number, the same buffer or the same fault.

    • In a cell that does not store the depth, both refuse before they look
      at anything else (`sad_of_ne` and the like).
    • In a cell that stores it, an entry point is its checks and an answer in
      which no level occurs (`sad_eq` and the like).

  The cost against four references is the exception, and `StridesDecide` says
  exactly when: the call is let through, the block is wide enough for the wide
  kernel, the strides differ, and just one of the bundles selected it.  That
  takes a processor that gives kernels their token wherever they can be
  selected; on one that never does, nothing but portable kernels runs and there
  is no exception.
-/
import PixelKernels.Proofs.EntryPoints

namespace PixelKernels

open Sad (cost)

variable {s : Storage} {depth : Depth} {block : BlockSize}

namespace Kernels

/-! ## §1. What a bundle has selected. -/

/-- The name of the implementation that a bundle uses for a slot of a depth. -/
def selectedName (kernels : Kernels) (s : Storage) (depth : Depth) (slot : Slot) : Option String :=
  match kernels.table s depth with
  | .ok table => (table.selected slot).map Implementation.name
  | .error _ => none

theorem name_choice_sadX4 (processor : Processor) (block : BlockSize) :
    (Registry.choice (s := s) processor ⟨.sadX4, block⟩).name
      = if usesWide processor.flags block then wideName else portableName := by
  unfold Registry.choice wideImplementation? wideKernel? usesWide
  -- the wide name needs the capability and a block of at least sixteen columns
  by_cases hflags : processor.flags.contains .avx2 = true
  · by_cases hw : block.width < 16
    · rw [if_pos hflags, if_pos hw, hflags, decide_eq_false (by omega)]
      rfl
    · rw [if_pos hflags, if_neg hw, hflags, decide_eq_true (by omega)]
      rfl
  · rw [if_neg hflags, Bool.eq_false_of_not_eq_true hflags]
    rfl

/-- For four references a bundle selects the wide kernel wherever there is one and it may run. -/
theorem selectedName_sadX4 {kernels : Kernels} {processor : Processor} (h : kernels.Selects processor)
    (hdepth : depth.storage = s) (block : BlockSize) :
    kernels.selectedName s depth ⟨.sadX4, block⟩
      = some (if usesWide processor.flags block then wideName else portableName) := by
  obtain ⟨table, htable, _, hholds⟩ := h hdepth
  have hslot : Slot.supported ⟨.sadX4, block⟩ = true := rfl
  rw [selectedName, htable]
  show (table.selected ⟨.sadX4, block⟩).map Implementation.name = _
  rw [hholds.selected_eq, defaultChoice, if_pos hslot, ← name_choice_sadX4 (s := s)]
  rfl

/-- The two names are apart, so a bundle's choice can be read off its name. -/
theorem selectedName_eq_wideName {kernels : Kernels} {processor : Processor}
    (h : kernels.Selects processor) (hdepth : depth.storage = s) :
    kernels.selectedName s depth ⟨.sadX4, block⟩ = some wideName
      ↔ usesWide processor.flags block = true := by
  have hnames : portableName ≠ wideName := by decide
  rw [selectedName_sadX4 h hdepth]
  cases usesWide processor.flags block <;> simp [hnames]

theorem selectedName_eq_portableName {kernels : Kernels} {processor : Processor}
    (h : kernels.Selects processor) (hdepth : depth.storage = s) :
    kernels.selectedName s depth ⟨.sadX4, block⟩ = some portableName
      ↔ usesWide processor.flags block = false := by
  have hnames : wideName ≠ portableName := by decide
  rw [selectedName_sadX4 h hdepth]
  cases usesWide processor.flags block <;> simp [hnames]

/-! ## §2. Where the strides decide. -/

/-- For four references the first bundle uses the wide kernel of a size, and the second the portable
one. -/
def SelectsApart (wide portable : Kernels) (s : Storage) (depth : Depth) (block : BlockSize) : Prop :=
  wide.selectedName s depth ⟨.sadX4, block⟩ = some wideName ∧
    portable.selectedName s depth ⟨.sadX4, block⟩ = some portableName

/-- The calls against four references on which two bundles part, where kernels get their token. -/
structure StridesDecide (first second : Kernels) (depth : Depth) (block : BlockSize)
    (source : Plane s) (references : Vector (Plane s) 4) : Prop where
  admitted_first : ∃ run, first.admitSadX4 depth block source references = .ok run
  admitted_second : ∃ run, second.admitSadX4 depth block source references = .ok run
  wide_enough : 16 ≤ block.width
  strides_differ : ∃ p ∈ references, ∃ q ∈ references, p.stride ≠ q.stride
  selected_apart : SelectsApart first second s depth block ∨ SelectsApart second first s depth block

/-- Such calls are made in the cell that stores the depth. -/
theorem StridesDecide.storage_eq {first second : Kernels} {source : Plane s}
    {references : Vector (Plane s) 4} (h : StridesDecide first second depth block source references) :
    depth.storage = s := by
  by_contra hne
  obtain ⟨run, hrun⟩ := h.admitted_first
  rw [admitSadX4_of_ne first hne] at hrun
  cases hrun

section Exception

variable {source : Plane s} {references : Vector (Plane s) 4} (hdepth : depth.storage = s)
include hdepth

/-- What an entry point lets through has passed the checks, whatever it would then run. -/
theorem admitSadX4_eq_ok_iff {kernels : Kernels} {processor : Processor}
    (h : kernels.Selects processor) :
    (∃ run, kernels.admitSadX4 depth block source references = .ok run)
      ↔ checkSadX4 depth block source references = .ok () := by
  rw [admitSadX4_eq h hdepth]
  constructor
  · rintro ⟨run, hrun⟩
    obtain ⟨_, hchecks, _⟩ := Outcome.bind_eq_ok_iff.mp hrun
    exact hchecks
  · intro hchecks
    rw [hchecks]
    exact ⟨_, rfl⟩

variable {first second : Kernels} {processor₁ processor₂ : Processor}

theorem selectsApart_iff (h₁ : first.Selects processor₁) (h₂ : second.Selects processor₂) :
    SelectsApart first second s depth block
      ↔ usesWide processor₁.flags block = true ∧ usesWide processor₂.flags block = false :=
  and_congr (selectedName_eq_wideName h₁ hdepth) (selectedName_eq_portableName h₂ hdepth)

/-- **Where two bundles part, the wide kernel answers with the four costs and the portable one fails
its assertion.** -/
theorem sadX4_of_selectsApart (h₁ : first.Selects processor₁) (h₂ : second.Selects processor₂)
    (hgrants : processor₁.GrantsToken)
    (hchecks : checkSadX4 depth block source references = .ok ())
    (hstrides : ∃ p ∈ references, ∃ q ∈ references, p.stride ≠ q.stride)
    (hapart : SelectsApart first second s depth block) :
    first.sadX4 depth block source references = .ok (references.map fun reference =>
        cost block.width block.height source.pixel reference.pixel) ∧
      second.sadX4 depth block source references = .error .assertion := by
  obtain ⟨hwide, hportable⟩ := (selectsApart_iff hdepth h₁ h₂).mp hapart
  have hcommon := Sad.Portable.commonStride_eq_false_iff.mpr hstrides
  -- with its token the one kernel runs as it was selected, and the other needs none
  have hruns : runsWide processor₁ block = true := (runsWide_of_grantsToken hgrants block).trans hwide
  have hstays : runsWide processor₂ block = false := by rw [runsWide, hportable, Bool.false_and]
  constructor
  · rw [sadX4_eq h₁ hdepth, hchecks, Outcome.ok_bind, if_pos (.inl hruns)]
    rfl
  · rw [sadX4_eq h₂ hdepth, hchecks, Outcome.ok_bind, hstays, hcommon]
    rfl

/-- Bundles that run the same kernel, or references of one stride, leave no difference. -/
theorem sadX4_congr (h₁ : first.Selects processor₁) (h₂ : second.Selects processor₂)
    (h : checkSadX4 depth block source references = .ok () →
      runsWide processor₁ block = runsWide processor₂ block ∨
        Sad.Portable.commonStride references = true) :
    first.sadX4 depth block source references = second.sadX4 depth block source references := by
  rw [sadX4_eq h₁ hdepth, sadX4_eq h₂ hdepth]
  cases hchecks : checkSadX4 depth block source references with
  | error fault => rfl
  | ok _ =>
    rcases h hchecks with hsame | hcommon
    · rw [hsame]
    · rw [hcommon]
      simp

/-- Where the strides decide, one of the bundles answers and the other fails its assertion. -/
theorem answers_of_stridesDecide (h₁ : first.Selects processor₁) (h₂ : second.Selects processor₂)
    (hgrants₁ : processor₁.GrantsToken) (hgrants₂ : processor₂.GrantsToken)
    (h : StridesDecide first second depth block source references) :
    ∃ wide portable, (wide = first ∧ portable = second ∨ wide = second ∧ portable = first) ∧
      SelectsApart wide portable s depth block ∧
      wide.sadX4 depth block source references = .ok (references.map fun reference =>
        cost block.width block.height source.pixel reference.pixel) ∧
      portable.sadX4 depth block source references = .error .assertion := by
  have hchecks := (admitSadX4_eq_ok_iff hdepth h₁).mp h.admitted_first
  rcases h.selected_apart with hapart | hapart
  · exact ⟨first, second, .inl ⟨rfl, rfl⟩, hapart,
      sadX4_of_selectsApart hdepth h₁ h₂ hgrants₁ hchecks h.strides_differ hapart⟩
  · exact ⟨second, first, .inr ⟨rfl, rfl⟩, hapart,
      sadX4_of_selectsApart hdepth h₂ h₁ hgrants₂ hchecks h.strides_differ hapart⟩

/-- **Two bundles part on a call exactly if the strides decide it.** -/
theorem sadX4_ne_iff (h₁ : first.Selects processor₁) (h₂ : second.Selects processor₂)
    (hgrants₁ : processor₁.GrantsToken) (hgrants₂ : processor₂.GrantsToken) :
    first.sadX4 depth block source references ≠ second.sadX4 depth block source references
      ↔ StridesDecide first second depth block source references := by
  have hruns₁ := runsWide_of_grantsToken hgrants₁ block
  have hruns₂ := runsWide_of_grantsToken hgrants₂ block
  constructor
  · intro hne
    -- each condition is needed: without it both answers are the same
    have hcases : checkSadX4 depth block source references = .ok () ∧
        ¬ (usesWide processor₁.flags block = usesWide processor₂.flags block ∨
          Sad.Portable.commonStride references = true) := by
      rw [← hruns₁, ← hruns₂]
      by_contra hnot
      exact hne (sadX4_congr hdepth h₁ h₂ fun hchecks => by_contra fun h => hnot ⟨hchecks, h⟩)
    obtain ⟨hchecks, hapart⟩ := hcases
    obtain ⟨hwide, hcommon⟩ := not_or.mp hapart
    have hstrides := Sad.Portable.commonStride_eq_false_iff.mp (eq_false_of_ne_true hcommon)
    have hadmitted₁ := (admitSadX4_eq_ok_iff hdepth h₁).mpr hchecks
    have hadmitted₂ := (admitSadX4_eq_ok_iff hdepth h₂).mpr hchecks
    cases hfirst : usesWide processor₁.flags block with
    | true =>
      have hsecond : usesWide processor₂.flags block = false := by simpa [hfirst] using hwide
      exact ⟨hadmitted₁, hadmitted₂, of_decide_eq_true (Bool.and_eq_true_iff.mp hfirst).2, hstrides,
        .inl ((selectsApart_iff hdepth h₁ h₂).mpr ⟨hfirst, hsecond⟩)⟩
    | false =>
      have hsecond : usesWide processor₂.flags block = true := by simpa [hfirst] using hwide
      exact ⟨hadmitted₁, hadmitted₂, of_decide_eq_true (Bool.and_eq_true_iff.mp hsecond).2, hstrides,
        .inr ((selectsApart_iff hdepth h₂ h₁).mpr ⟨hsecond, hfirst⟩)⟩
  · -- an answer on one side and a fault on the other are never the same
    intro h heq
    obtain ⟨wide, portable, hwhich, -, hwide, hportable⟩ :=
      answers_of_stridesDecide hdepth h₁ h₂ hgrants₁ hgrants₂ h
    have hsame : wide.sadX4 depth block source references
        = portable.sadX4 depth block source references := by
      rcases hwhich with ⟨rfl, rfl⟩ | ⟨rfl, rfl⟩
      · exact heq
      · exact heq.symm
    rw [hwide, hportable] at hsame
    cases hsame

end Exception

/-! ## §3. Any two levels. -/

theorem sadX4_ne_iff_stridesDecide {first second : Kernels} {processor₁ processor₂ : Processor}
    (h₁ : first.Selects processor₁) (h₂ : second.Selects processor₂)
    (hgrants₁ : processor₁.GrantsToken) (hgrants₂ : processor₂.GrantsToken) (source : Plane s)
    (references : Vector (Plane s) 4) :
    first.sadX4 depth block source references ≠ second.sadX4 depth block source references
      ↔ StridesDecide first second depth block source references := by
  by_cases hdepth : depth.storage = s
  · exact sadX4_ne_iff hdepth h₁ h₂ hgrants₁ hgrants₂
  · constructor
    · intro hne
      rw [sadX4_of_ne first hdepth, sadX4_of_ne second hdepth] at hne
      exact absurd rfl hne
    · intro h
      exact absurd h.storage_eq hdepth

/-- Without a token both bundles run the portable kernel, whatever they selected. -/
theorem sadX4_eq_of_not_summons {first second : Kernels} {processor₁ processor₂ : Processor}
    (h₁ : first.Selects processor₁) (h₂ : second.Selects processor₂)
    (hsummons₁ : processor₁.summons = false) (hsummons₂ : processor₂.summons = false)
    (source : Plane s) (references : Vector (Plane s) 4) :
    first.sadX4 depth block source references = second.sadX4 depth block source references := by
  by_cases hdepth : depth.storage = s
  · refine sadX4_congr hdepth h₁ h₂ fun _ => .inl ?_
    rw [runsWide_of_not_summons hsummons₁, runsWide_of_not_summons hsummons₂]
  · rw [sadX4_of_ne first hdepth, sadX4_of_ne second hdepth]

end Kernels

/-- **Every two levels of a processor answer alike**: costs, costs against an average and predictions
always.  Costs against four references do so too on a processor that gives no token; on one that gives
it to all kernels that it can select, they do so except exactly where the strides decide, and there the
bundle with the portable kernel fails its assertion and the bundle with the wide kernel answers with
the four costs. -/
theorem levels_answer_alike (processor : Processor) (a b : CpuLevel) :
    ∃ first second, Kernels.atLevel processor a = .ok first ∧ Kernels.atLevel processor b = .ok second ∧
      ∀ (s : Storage) (depth : Depth) (block : BlockSize) (source : Plane s),
        (∀ reference, first.sad depth block source reference
          = second.sad depth block source reference) ∧
        (∀ reference predictor, first.sadAvg depth block source reference predictor
          = second.sadAvg depth block source reference predictor) ∧
        (∀ mode (destination : Plane s) edge, first.predictIntra depth block mode destination edge
          = second.predictIntra depth block mode destination edge) ∧
        ∀ references,
          (processor.GrantsToken →
            (first.sadX4 depth block source references ≠ second.sadX4 depth block source references
              ↔ Kernels.StridesDecide first second depth block source references) ∧
            (Kernels.StridesDecide first second depth block source references →
              ∃ wide portable, (wide = first ∧ portable = second ∨ wide = second ∧ portable = first) ∧
                Kernels.SelectsApart wide portable s depth block ∧
                wide.sadX4 depth block source references = .ok (references.map fun reference =>
                  cost block.width block.height source.pixel reference.pixel) ∧
                portable.sadX4 depth block source references = .error .assertion)) ∧
          (processor.summons = false →
            first.sadX4 depth block source references
              = second.sadX4 depth block source references) := by
  obtain ⟨first, hfirst, h₁⟩ := Kernels.atLevel_selects processor a
  obtain ⟨second, hsecond, h₂⟩ := Kernels.atLevel_selects processor b
  refine ⟨first, second, hfirst, hsecond, ?_⟩
  intro s depth block source
  refine ⟨?_, ?_, ?_, fun references => ⟨fun hgrants => ⟨?_, ?_⟩, fun hsummons => ?_⟩⟩
  -- each call is decided by its cell first, and then by checks in which no level occurs
  · intro reference
    by_cases hdepth : depth.storage = s
    · rw [Kernels.sad_eq h₁ hdepth, Kernels.sad_eq h₂ hdepth]
    · rw [Kernels.sad_of_ne first hdepth, Kernels.sad_of_ne second hdepth]
  · intro reference predictor
    by_cases hdepth : depth.storage = s
    · rw [Kernels.sadAvg_eq h₁ hdepth, Kernels.sadAvg_eq h₂ hdepth]
    · rw [Kernels.sadAvg_of_ne first hdepth, Kernels.sadAvg_of_ne second hdepth]
  · intro mode destination edge
    by_cases hdepth : depth.storage = s
    · rw [Kernels.predictIntra_eq h₁ hdepth, Kernels.predictIntra_eq h₂ hdepth]
    · rw [Kernels.predictIntra_of_ne first hdepth, Kernels.predictIntra_of_ne second hdepth]
  · exact Kernels.sadX4_ne_iff_stridesDecide h₁ h₂ (hgrants.upTo a) (hgrants.upTo b) source references
  · intro h
    exact Kernels.answers_of_stridesDecide h.storage_eq h₁ h₂ (hgrants.upTo a) (hgrants.upTo b) h
  · exact Kernels.sadX4_eq_of_not_summons h₁ h₂ hsummons hsummons source references

/-- A dark plane of just the samples that sixteen rows of sixteen touch at a stride of one. -/
def darkPlane (stride : Int) : Plane .byte := ⟨Array.replicate 31 0, 0, stride⟩

theorem admits_darkPlane {stride : Int} (h : (darkPlane stride).fits 16 16 = .ok true) :
    Kernels.Admits .eight .b16x16 (darkPlane stride) where
  fits := h
  inRange := Kernels.inRange_eight _

/-- Four dark planes, one with a stride of its own. -/
def darkReferences : Vector (Plane .byte) 4 := #v[darkPlane 0, darkPlane 0, darkPlane 0, darkPlane 1]

theorem checkSadX4_darkReferences :
    Kernels.checkSadX4 .eight .b16x16 (darkPlane 0) darkReferences = .ok () := by
  have hadmits : Kernels.Admits .eight .b16x16 (darkPlane 0) := admits_darkPlane rfl
  refine Kernels.checkSadX4_eq_ok_iff.mpr ⟨hadmits, ?_⟩
  simp only [darkReferences, Vector.mem_mk, List.mem_toArray, List.mem_cons, List.not_mem_nil, or_false,
    forall_eq_or_imp, forall_eq]
  exact ⟨hadmits, hadmits, hadmits, admits_darkPlane rfl⟩

theorem stridesDecide_darkReferences {scalar third : Kernels} {summons : Bool}
    (h₁ : scalar.Selects (Processor.upTo ⟨.all, summons⟩ .scalar))
    (h₂ : third.Selects (Processor.upTo ⟨.all, summons⟩ .v3)) :
    Kernels.StridesDecide scalar third .eight .b16x16 (darkPlane 0) darkReferences := by
  have hstored : Depth.eight.storage = .byte := rfl
  have hchecks := checkSadX4_darkReferences
  have hwide : usesWide (CpuLevel.v3.flags .all) .b16x16 = true := by decide
  have hportable : usesWide (CpuLevel.scalar.flags .all) .b16x16 = false := by decide
  exact
    { admitted_first := (Kernels.admitSadX4_eq_ok_iff hstored h₁).mpr hchecks
      admitted_second := (Kernels.admitSadX4_eq_ok_iff hstored h₂).mpr hchecks
      wide_enough := by decide
      strides_differ :=
        ⟨darkPlane 0, by simp [darkReferences], darkPlane 1, by simp [darkReferences], by decide⟩
      selected_apart := .inr ((Kernels.selectsApart_iff hstored h₂ h₁).mpr ⟨hwide, hportable⟩) }

/-- On the dark planes the scalar level and the third part where a token is given; where none is, they
have selected apart and still answer alike. -/
theorem levels_part_on_dark_planes :
    (∃ scalar third, Kernels.atLevel .full .scalar = .ok scalar ∧
      Kernels.atLevel .full .v3 = .ok third ∧ Processor.full.GrantsToken ∧
      Kernels.StridesDecide scalar third .eight .b16x16 (darkPlane 0) darkReferences ∧
      scalar.sadX4 .eight .b16x16 (darkPlane 0) darkReferences
        ≠ third.sadX4 .eight .b16x16 (darkPlane 0) darkReferences) ∧
    ∃ scalar third, Kernels.atLevel ⟨.all, false⟩ .scalar = .ok scalar ∧
      Kernels.atLevel ⟨.all, false⟩ .v3 = .ok third ∧
      Kernels.StridesDecide scalar third .eight .b16x16 (darkPlane 0) darkReferences ∧
      scalar.sadX4 .eight .b16x16 (darkPlane 0) darkReferences
        = third.sadX4 .eight .b16x16 (darkPlane 0) darkReferences := by
  constructor
  · obtain ⟨scalar, third, hscalar, hthird, hcalls⟩ := levels_answer_alike .full .scalar .v3
    have hgrants : Processor.full.GrantsToken := by decide
    have hdecide := stridesDecide_darkReferences (Kernels.selects_of_atLevel hscalar)
      (Kernels.selects_of_atLevel hthird)
    refine ⟨scalar, third, hscalar, hthird, hgrants, hdecide, ?_⟩
    exact (((hcalls .byte .eight .b16x16 (darkPlane 0)).2.2.2 _).1 hgrants).1.mpr hdecide
  · obtain ⟨scalar, third, hscalar, hthird, hcalls⟩ := levels_answer_alike ⟨.all, false⟩ .scalar .v3
    refine ⟨scalar, third, hscalar, hthird, stridesDecide_darkReferences
      (Kernels.selects_of_atLevel hscalar) (Kernels.selects_of_atLevel hthird), ?_⟩
    exact ((hcalls .byte .eight .b16x16 (darkPlane 0)).2.2.2 _).2 rfl

end PixelKernels
