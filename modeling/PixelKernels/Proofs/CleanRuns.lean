/-
  PixelKernels.Proofs.CleanRuns
  ─────────────────────────────
  **A HARNESS NEVER ACCUSES A KERNEL THAT IS RIGHT, AND NEVER FAILS ITSELF.**

  What a harness shows are views with samples of the depth, whatever the
  stream draws, so a right kernel answers; and what a harness expects is what
  a right kernel answers, in whichever layout it is shown the block.

    • Expected and right answers are the same: the costs of the loose layout
      are the exact costs of the views (`exact_get`), the cost against the
      average is the exact one (`average_eq`), and a buffer that was
      overwritten by the reference's block holds what its cells ought to
      (`around_eq_want`).
    • So a run counts its comparisons and adds no failure, and there are few
      of them for each candidate (`run_of_costsExactly`,
      `run_of_predictsExactly`).
-/
import PixelKernels.Proofs.HarnessVerdicts
import PixelKernels.Proofs.RightKernels

namespace PixelKernels

open Report (Adds exists_answers)
open Sad (cost)

variable {s : Storage}

/-! ## §1. Differences. -/

namespace SadHarness

section Presented

variable {harness next : SadHarness s} {kind : KernelKind} {scenario : SadScenario}
  {buffers : SadBuffers s} {setting : Setting s}
  (h : harness.Presents kind scenario buffers next setting)
include h

/-- **The expected costs are the exact costs of the views**, whichever layout the candidates see. -/
theorem Presents.exact_get (i : Fin 4) :
    setting.exact.get i = Sad.exact harness.block setting.source (setting.views.get i) := by
  have hmirrors := h.mirrors i
  have hloose := Sad.reference_sad_of_fits h.source_isView.admits.fits (h.loose_isView i).admits.fits
  rw [h.exact_eq i] at hloose
  rw [Except.ok.inj hloose, h.source_isView.exact_eq hmirrors.isView]
  exact Sad.cost_congr (fun _ _ _ _ => rfl) fun x hx y hy => (hmirrors.pixel_eq x hx y hy).symm

/-- The expected cost against the average is the exact one of the first view. -/
theorem Presents.average_eq {average : Nat}
    (haverage : Reference.sadAvg harness.block setting.source (setting.loose.get 0) setting.second
      = .ok average) :
    average = Sad.exact harness.block setting.source
      (Plane.averaged harness.block (setting.views.get 0) setting.second) := by
  have hmirrors := h.mirrors 0
  have hloose := Sad.reference_sadAvg_of_fits h.source_isView.admits.fits
    (h.loose_isView 0).admits.fits h.second_fills.size_eq.ge
  rw [haverage] at hloose
  rw [Except.ok.inj hloose, h.source_isView.exact_averaged hmirrors.isView h.second_fills]
  refine Sad.cost_congr (fun _ _ _ _ => rfl) fun x hx y hy => ?_
  rw [hmirrors.pixel_eq x hx y hy]

theorem Presents.exact_le (i : Fin 4) : setting.exact.get i ≤ uint32Max := by
  rw [h.exact_get i, h.source_isView.exact_eq (h.mirrors i).isView]
  exact Nat.le_of_lt_succ (Sad.cost_lt harness.block.width_le harness.block.height_le _ _)

theorem Presents.views_isView {view : Plane s} (hin : view ∈ setting.views) :
    view.IsView harness.depth harness.block := by
  obtain ⟨i, hi, rfl⟩ := Vector.mem_iff_getElem.mp hin
  exact (h.mirrors ⟨i, hi⟩).isView

/-- No bound is tried that does not fit. -/
theorem Presents.bounds_le {bound : Nat} (hin : bound ∈ bounds setting.scenario (setting.exact.get 0)) :
    bound ≤ uint32Max := by
  have hmax : uint32Max = 4294967295 := rfl
  have hexact := h.exact_le 0
  unfold bounds extremeBound at hin
  simp only [List.mem_append, List.mem_cons, List.not_mem_nil, or_false] at hin
  rcases hin with ((rfl | rfl | rfl | rfl) | hbelow) | hextreme
  · exact Nat.zero_le _
  · exact hexact
  · exact Nat.min_le_right _ _
  · exact Nat.le_refl _
  · split at hbelow
    · rw [List.mem_singleton.mp hbelow]
      omega
    · cases hbelow
  · split at hextreme
    · rw [List.mem_singleton.mp hextreme]
      omega
    · cases hextreme

/-- A right bounded kernel answers every bound that is tried, and respects it. -/
theorem Presents.exists_bounded {run : SadBoundedFn s}
    (hright : (KernelFn.sadBounded run).CostsExactly harness.depth harness.block) :
    ∃ got : Nat → Nat, ∀ bound ∈ bounds setting.scenario (setting.exact.get 0),
      run setting.source (setting.views.get 0) bound = .ok (got bound) ∧
        Sad.RespectsBound (setting.exact.get 0) bound (got bound) := by
  have hanswer : ∀ bound ∈ bounds setting.scenario (setting.exact.get 0), ∃ answer,
      run setting.source (setting.views.get 0) bound = .ok answer ∧
        Sad.RespectsBound (setting.exact.get 0) bound answer := by
    intro bound hin
    rw [h.exact_get 0]
    exact hright _ _ bound h.source_isView (h.mirrors 0).isView (h.bounds_le hin)
  choose! got hgot using hanswer
  exact ⟨got, hgot⟩

end Presented

theorem length_bounds_le (scenario : SadScenario) (exact : Nat) : (bounds scenario exact).length ≤ 6 := by
  unfold bounds
  split <;> split <;> simp

/-- **A right candidate has answers, and none of them is a failure.** -/
theorem exists_right_answers {harness next : SadHarness s} {kind : KernelKind} {scenario : SadScenario}
    {buffers : SadBuffers s} {setting : Setting s} {average : Nat}
    (h : harness.Presents kind scenario buffers next setting)
    (haverage : Reference.sadAvg harness.block setting.source (setting.loose.get 0) setting.second
      = .ok average) (candidate : Implementation s)
    (hright : candidate.kernel.CostsExactly harness.depth harness.block) :
    ∃ answers, setting.Answered candidate answers ∧
      setting.failures average candidate answers = [] ∧ setting.checks answers ≤ 6 := by
  have hcosts : setting.failures average candidate (.costs setting.exact) = [] := by
    simp [Setting.failures]
  cases hkernel : candidate.kernel with
  | sad run =>
    rw [hkernel] at hright
    refine ⟨.costs setting.exact, .sad hkernel fun i => ?_, hcosts, show 4 ≤ 6 by decide⟩
    rw [h.exact_get i]
    exact hright _ _ h.source_isView (h.mirrors i).isView
  | sadX4 run =>
    rw [hkernel] at hright
    refine ⟨.costs setting.exact, .sadX4 hkernel ?_, hcosts, show 4 ≤ 6 by decide⟩
    rw [hright _ _ h.source_isView (fun _ hin => h.views_isView hin) h.common]
    refine congrArg Except.ok (Vector.ext fun i hi => ?_)
    rw [Vector.getElem_map]
    exact (h.exact_get ⟨i, hi⟩).symm
  | sadAvg run =>
    rw [hkernel] at hright
    refine ⟨.average average, .sadAvg hkernel ?_, if_pos rfl, show 1 ≤ 6 by decide⟩
    rw [h.average_eq haverage]
    exact hright _ _ _ h.source_isView (h.mirrors 0).isView h.second_fills
  | sadBounded run =>
    rw [hkernel] at hright
    obtain ⟨got, hgot⟩ := h.exists_bounded hright
    refine ⟨.bounded got, .sadBounded hkernel fun bound hin => (hgot bound hin).1, ?_, length_bounds_le _ _⟩
    refine List.map_eq_nil_iff.mpr (List.filter_eq_nil_iff.mpr fun bound hin => ?_)
    simpa using (hgot bound hin).2
  | intra run => exact ⟨.silent, .intra hkernel, rfl, Nat.zero_le _⟩

/-- **Right candidates are not accused.**  Whatever is drawn, the scenario is presented, and a run of
right candidates counts comparisons, at most six for each, and adds no failure. -/
theorem run_of_costsExactly (harness : SadHarness s) (kind : KernelKind) (scenario : SadScenario)
    {candidates : List (Implementation s)}
    (hright : ∀ c ∈ candidates, c.kernel.CostsExactly harness.depth harness.block) :
    ∃ buffers next setting, harness.Presents kind scenario buffers next setting ∧
      ∃ made ≤ 6 * candidates.length, ∀ report : Report,
        (harness.run kind candidates scenario report).1 = next ∧
        report.Adds made [] (harness.run kind candidates scenario report).2 := by
  obtain ⟨buffers, next, setting, h⟩ := harness.present_presents kind scenario
  obtain ⟨average, haverage, hadds⟩ := h.reports
  obtain ⟨answers, hanswers, hnone, hmade⟩ :=
    exists_answers fun c hc => exists_right_answers h haverage c (hright c hc)
  refine ⟨buffers, next, setting, h, _, hmade, fun report => ?_⟩
  rw [← hnone]
  exact hadds candidates answers hanswers report

end SadHarness

/-! ## §2. Predictions. -/

namespace IntraHarness

section Presented

variable {harness next : IntraHarness s} {kernel : IntraKernel} {scenario : IntraScenario}
  {setting : Setting s} (h : harness.Presents kernel scenario next setting)

/-- Positions of the destination in the block's rows and columns are its positions around the block. -/
theorem index_guarded (harness : IntraHarness s) (sentinel : Sample s) (r c : Nat) :
    (harness.guarded sentinel).index c r
      = ((r + 1) * harness.stride + (c + 4) : Nat) := by
  show ((harness.stride + guardWidth : Nat) : Int) + r * (harness.stride : Int) + c = _
  rw [guardWidth, Nat.succ_mul]
  push_cast
  omega

/-- A position with another row or column than those of the block is none of the block's. -/
theorem ne_index_guarded (sentinel : Sample s) {x y : Nat} (hx : x < harness.stride)
    (hout : ¬ (1 ≤ y ∧ y ≤ harness.side ∧ 4 ≤ x ∧ x < 4 + harness.side)) :
    ∀ r < harness.side, ∀ c < harness.side,
      ((y * harness.stride + x : Nat) : Int) ≠ (harness.guarded sentinel).index c r := by
  intro r hr c hc heq
  have hstride : harness.stride = harness.side + 8 := rfl
  rw [index_guarded] at heq
  obtain ⟨hrow, hcolumn⟩ := row_and_column (y := y) hx
  obtain ⟨hrow', hcolumn'⟩ := row_and_column (y := r + 1) (show c + 4 < harness.stride by omega)
  -- one position has one row and one column
  rw [Int.ofNat_inj.mp heq] at hrow hcolumn
  omega

/-- **A destination overwritten by the reference's block holds what it ought to, guards included.** -/
theorem around_eq_want {buffer : Array (Sample s)}
    (hwritten : (harness.guarded setting.sentinel).Overwritten harness.side setting.expected buffer)
    {cell : Int × Int} (hcell : cell ∈ cells harness.side) :
    ({ harness.guarded setting.sentinel with data := buffer } : Plane s).around cell.1 cell.2
      = setting.want harness.side cell.1 cell.2 := by
  have hstride : harness.stride = harness.side + 8 := rfl
  obtain ⟨y, hy, hcell⟩ := List.mem_flatMap.mp hcell
  obtain ⟨x, hx, rfl⟩ := List.mem_map.mp hcell
  have hy := List.mem_range.mp hy
  have hx := List.mem_range.mp hx
  rw [around_eq]
  unfold Setting.want
  by_cases hin : 1 ≤ y ∧ y ≤ harness.side ∧ 4 ≤ x ∧ x < 4 + harness.side
  · obtain ⟨r, rfl⟩ : ∃ r, y = r + 1 := ⟨y - 1, by omega⟩
    obtain ⟨c, rfl⟩ : ∃ c, x = c + 4 := ⟨x - 4, by omega⟩
    have hread := hwritten.inside r (by omega) c (by omega)
    rw [index_guarded, Int.toNat_natCast] at hread
    have hat : ((r + 1 : Nat) : Int) - 1 = r ∧ ((c + 4 : Nat) : Int) - 4 = c := by omega
    rw [hat.1, hat.2, if_pos (by omega), hread]
    norm_cast
  · have hlast : y * harness.stride + harness.stride ≤ harness.cellCount := Sad.packed_row_le hy
    have hkept : buffer[y * harness.stride + x]? = some setting.sentinel := by
      rw [hwritten.outside _ (ne_index_guarded setting.sentinel (by omega) hin)]
      show (Array.replicate harness.cellCount setting.sentinel)[_]? = _
      rw [Array.getElem?_replicate, if_pos (by omega)]
    rw [if_neg (by omega), Array.getD_eq_getD_getElem?, hkept]
    rfl

include h in
/-- **A right candidate has an answer, and it is not a failure.** -/
theorem exists_right_answer (candidate : Implementation s)
    (hright : candidate.kernel.PredictsExactly harness.depth kernel harness.side) :
    ∃ answer, setting.Answered harness candidate answer ∧
      setting.failures harness candidate answer = [] ∧ Setting.checks harness answer ≤ 1360 := by
  have hside := harness.side_isSide.le
  have hstride : harness.stride = harness.side + 8 := rfl
  have hcells : harness.cellCount ≤ 1360 := Nat.mul_le_mul (show _ ≤ 40 by omega) (show _ ≤ 34 by omega)
  cases hkernel : candidate.kernel with
  | intra run =>
    rw [hkernel] at hright
    obtain ⟨houtcome, hwritten⟩ := hright (harness.guarded setting.sentinel) setting.edge
      setting.expected (show harness.stride + 4 < 1 <<< 64 by omega)
      (harness.guarded_fits setting.sentinel) (show harness.side ≤ harness.stride by omega) h.complete
      h.expected_eq
    have hsize : (harness.guarded setting.sentinel).data.size = harness.cellCount := Array.size_replicate
    refine ⟨some _, .intra hkernel (congrArg (Painting.mk _) houtcome) (hwritten.size_eq.trans hsize), ?_, hcells⟩
    refine List.map_eq_nil_iff.mpr (List.filter_eq_nil_iff.mpr fun cell hin => ?_)
    simpa using around_eq_want hwritten hin
  | sad run | sadX4 run | sadAvg run | sadBounded run =>
    exact ⟨none, .silent (by simp [hkernel, KernelFn.signature]), rfl, Nat.zero_le _⟩

end Presented

/-- **Right candidates are not accused.**  Whatever is drawn, the scenario is presented, and a run of
right candidates counts comparisons, at most one for each cell and candidate, and adds no failure. -/
theorem run_of_predictsExactly (harness : IntraHarness s) (kernel : IntraKernel)
    (scenario : IntraScenario) {candidates : List (Implementation s)}
    (hright : ∀ c ∈ candidates, c.kernel.PredictsExactly harness.depth kernel harness.side) :
    ∃ next setting, harness.Presents kernel scenario next setting ∧
      ∃ made ≤ 1360 * candidates.length, ∀ report : Report,
        (harness.run kernel candidates scenario report).1 = next ∧
        report.Adds made [] (harness.run kernel candidates scenario report).2 := by
  obtain ⟨next, setting, h⟩ := harness.present_presents kernel scenario
  obtain ⟨answers, hanswers, hnone, hmade⟩ :=
    exists_answers fun c hc => exists_right_answer h c (hright c hc)
  refine ⟨next, setting, h, _, hmade, fun report => ?_⟩
  rw [← hnone]
  exact h.reports.run_adds candidates answers hanswers report

end IntraHarness

end PixelKernels
