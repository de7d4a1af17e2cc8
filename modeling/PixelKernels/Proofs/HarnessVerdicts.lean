/-
  PixelKernels.Proofs.HarnessVerdicts
  ───────────────────────────────────
  **A HARNESS REPORTS THE DIFFERENCES, AND NOTHING ELSE.**

  A candidate may be any function.  What a harness says of it depends only on
  what it answers to the calls of a presentation (`Answered`): four costs, a
  cost against an average, a cost for each bound, a buffer.  The failures are
  then a function of these answers (`failures`), written down here without the
  harness: which answers are wrong, in which order, under which labels.

    • A candidate's trials are its answers, judged (`judged_trials`), and a
      candidate with a signature that is not called adds nothing.
    • The destination of a predictor is compared cell by cell.  Position `i` of
      the buffer is a row and a column around the block (`wanted_eq`), so a
      walk over the buffer is a walk over rows and columns.
    • A run is its candidates, one after another (`judged_flatMap`).
-/
import PixelKernels.Proofs.BoundedCosts
import PixelKernels.Proofs.PresentedBorders
import PixelKernels.Proofs.PresentedDifferences
import PixelKernels.Proofs.RecordedTrials

namespace PixelKernels

open Report (Judged Adds judged_flatMap judged_map)

variable {s : Storage}

/-- A comparison of equals fails exactly where the answer differs. -/
theorem different_eq (want got : Nat) : (!(want == got)) = decide (got ≠ want) := by
  rw [Bool.eq_iff_iff]
  simp only [Bool.not_eq_true', beq_eq_false_iff_ne, decide_eq_true_eq]
  exact ne_comm

/-! ## §1. Differences. -/

namespace SadHarness

/-- What a candidate answers to the calls of a presentation. -/
inductive Answers where
  /-- A cost for each of the four references. -/
  | costs (got : Vector Nat 4)
  /-- A cost against the average of the first reference and the second predictor. -/
  | average (got : Nat)
  /-- A cost against the first reference for each bound. -/
  | bounded (got : Nat → Nat)
  /-- Nothing: it is not called. -/
  | silent

namespace Setting

/-- A candidate gives these answers, without a fault, to the calls that its signature gets. -/
inductive Answered (setting : Setting s) (candidate : Implementation s) : Answers → Prop
  | sad {run : SadFn s} {got : Vector Nat 4} (kernel : candidate.kernel = .sad run)
      (answers : ∀ i : Fin 4, run setting.source (setting.views.get i) = .ok (got.get i)) :
      Answered setting candidate (.costs got)
  | sadX4 {run : SadX4Fn s} {got : Vector Nat 4} (kernel : candidate.kernel = .sadX4 run)
      (answers : run setting.source setting.views = .ok got) :
      Answered setting candidate (.costs got)
  | sadAvg {run : SadAvgFn s} {got : Nat} (kernel : candidate.kernel = .sadAvg run)
      (answer : run setting.source (setting.views.get 0) setting.second = .ok got) :
      Answered setting candidate (.average got)
  | sadBounded {run : SadBoundedFn s} {got : Nat → Nat} (kernel : candidate.kernel = .sadBounded run)
      (answers : ∀ bound ∈ bounds setting.scenario (setting.exact.get 0),
        run setting.source (setting.views.get 0) bound = .ok (got bound)) :
      Answered setting candidate (.bounded got)
  | intra {run : IntraFn s} (kernel : candidate.kernel = .intra run) :
      Answered setting candidate .silent

/-- Number of comparisons that answers are put to. -/
def checks (setting : Setting s) : Answers → Nat
  | .costs _ => 4
  | .average _ => 1
  | .bounded _ => (bounds setting.scenario (setting.exact.get 0)).length
  | .silent => 0

/-- The failures that are due to a candidate with these answers, given the cost against the average. -/
def failures (setting : Setting s) (average : Nat) (candidate : Implementation s) :
    Answers → List Mismatch
  | .costs got =>
      ((List.finRange 4).filter fun i => got.get i ≠ setting.exact.get i).map fun i =>
        ⟨setting.key, candidate.name, setting.scenario.name ++ " ref " ++ toString i.val,
          setting.exact.get i, got.get i⟩
  | .average got =>
      if got = average then []
      else [⟨setting.key, candidate.name, setting.scenario.name, average, got⟩]
  | .bounded got =>
      ((bounds setting.scenario (setting.exact.get 0)).filter fun bound =>
        ¬ Sad.RespectsBound (setting.exact.get 0) bound (got bound)).map fun bound =>
          ⟨setting.key, candidate.name, setting.scenario.name ++ s!" bound {bound}",
            setting.exact.get 0, got bound⟩
  | .silent => []

end Setting

theorem keepsBound_eq_true_iff {exact bound got : Nat} :
    keepsBound exact bound got = true ↔ Sad.RespectsBound exact bound got := by
  unfold keepsBound Sad.RespectsBound
  split
  · next hle => simp only [beq_iff_eq]; omega
  · next hgt => simp only [decide_eq_true_eq]; omega

/-- **The trials of a candidate are its answers, judged.** -/
theorem judged_trials {setting : Setting s} {average : Nat}
    (haverage : Reference.sadAvg setting.key.block setting.source (setting.loose.get 0) setting.second
      = .ok average) (candidate : Implementation s) (answers : Answers)
    (h : setting.Answered candidate answers) :
    Judged (trials setting candidate) (setting.checks answers)
      (setting.failures average candidate answers) := by
  -- one case for each signature; the trials of a signature are a loop over its calls
  cases h with
  | @sad run got hkernel hanswers =>
    unfold trials
    rw [hkernel]
    refine judged_map (fun i : Fin 4 => .equal setting.key candidate.name
      (setting.scenario.name ++ " ref " ++ toString i.val) (setting.exact.get i) (got.get i)) ?_ ?_
    · intro i _
      have hanswer : run setting.source setting.views[i] = .ok (got.get i) := hanswers i
      rw [hanswer]
      rfl
    · intro i _
      exact different_eq _ _
  | @sadX4 run got hkernel hanswers =>
    unfold trials
    rw [hkernel]
    simp only [hanswers]
    exact judged_map (fun i : Fin 4 => .equal setting.key candidate.name
      (setting.scenario.name ++ " ref " ++ toString i.val) (setting.exact.get i) (got.get i)) (fun _ _ => rfl)
      fun i _ => different_eq _ _
  | @sadAvg run got hkernel hanswer =>
    refine ⟨[.equal setting.key candidate.name setting.scenario.name average got], ?_, rfl, ?_⟩
    · have hexpected : Reference.sadAvg setting.key.block setting.source setting.loose[0] setting.second
          = .ok average := haverage
      have hgot : run setting.source setting.views[0] setting.second = .ok got := hanswer
      unfold trials
      rw [hkernel]
      simp only [hexpected, hgot]
      rfl
    · unfold Report.mismatches Setting.failures Report.Trial.equal
      by_cases hsame : got = average
      · simp [hsame]
      · simp [hsame, Ne.symm hsame, Report.Trial.mismatch]
  | @sadBounded run got hkernel hanswers =>
    unfold trials
    rw [hkernel]
    refine judged_map (fun bound => ⟨setting.key, candidate.name,
      setting.scenario.name ++ s!" bound {bound}", setting.exact.get 0, got bound,
      keepsBound (setting.exact.get 0) bound (got bound)⟩) ?_ ?_
    · intro bound hin
      have hanswer : run setting.source setting.views[0] bound = .ok (got bound) := hanswers bound hin
      rw [hanswer]
      rfl
    · intro bound _
      rw [Bool.eq_iff_iff, Bool.not_eq_true', ← Bool.not_eq_true, keepsBound_eq_true_iff,
        decide_eq_true_eq]
  | intra hkernel =>
    unfold trials
    rw [hkernel]
    exact Report.judged_nil

end SadHarness

/-! ## §2. Predictions. -/

/-- The sample in row `r` and column `c` from the origin of a plane; rows above the origin and columns
before it are negative. -/
def Plane.around (p : Plane s) (r c : Int) : Nat := (p.data.getD (p.base + r * p.stride + c).toNat 0).toNat

namespace IntraHarness

/-- The cells of a destination of side `n` in raster order, as row and column from the block's origin:
one row of guards above the block and one below it, four columns of guards on either side. -/
def cells (n : Nat) : List (Int × Int) :=
  (List.range (n + 2)).flatMap fun (y : Nat) =>
    (List.range (n + 8)).map fun (x : Nat) => ((y : Int) - 1, (x : Int) - 4)

namespace Setting

/-- A candidate leaves this buffer, without a fault and without cells more or less, or is not called. -/
inductive Answered (harness : IntraHarness s) (setting : Setting s) (candidate : Implementation s) :
    Option (Array (Sample s)) → Prop
  | intra {run : IntraFn s} {buffer : Array (Sample s)} (kernel : candidate.kernel = .intra run)
      (painting : run (harness.guarded setting.sentinel) setting.edge harness.depth.max = ⟨buffer, .ok ()⟩)
      (size : buffer.size = harness.cellCount) : Answered harness setting candidate (some buffer)
  | silent (kernel : candidate.kernel.signature ≠ .intra) : Answered harness setting candidate none

/-- What the cell in row `r` and column `c` ought to hold: the sample of the expected block inside it,
the guards' value outside. -/
def want (setting : Setting s) (n : Nat) (r c : Int) : Nat :=
  if 0 ≤ r ∧ r < n ∧ 0 ≤ c ∧ c < n then setting.expected.getD (r * n + c).toNat 0
  else setting.sentinel.toNat

/-- The failures that are due to a candidate that left this buffer. -/
def failures (harness : IntraHarness s) (setting : Setting s) (candidate : Implementation s) :
    Option (Array (Sample s)) → List Mismatch
  | some buffer =>
      let left : Plane s := { harness.guarded setting.sentinel with data := buffer }
      ((cells harness.side).filter fun (r, c) =>
        left.around r c ≠ setting.want harness.side r c).map fun (r, c) =>
          ⟨setting.key, candidate.name, setting.scenario.name ++ s!" row {r} col {c}",
            setting.want harness.side r c, left.around r c⟩
  | none => []

/-- Number of comparisons that a buffer is put to: one for each cell. -/
def checks (harness : IntraHarness s) : Option (Array (Sample s)) → Nat
  | some _ => harness.cellCount
  | none => 0

end Setting

/-- Position, row and column of a cell of the destination. -/
theorem row_and_column {width x y : Nat} (hx : x < width) :
    (y * width + x) / width = y ∧ (y * width + x) % width = x := by
  constructor
  · rw [Nat.add_comm, Nat.add_mul_div_right x y (by omega), Nat.div_eq_of_lt hx, Nat.zero_add]
  · rw [Nat.add_comm, Nat.add_mul_mod_self_right, Nat.mod_eq_of_lt hx]

section Cells

variable (harness : IntraHarness s) {setting : Setting s} {x y : Nat} (hx : x < harness.stride)
include hx

theorem cellLabel_eq (scenario : IntraScenario) :
    harness.cellLabel scenario (y * harness.stride + x)
      = scenario.name ++ s!" row {(y : Int) - 1} col {(x : Int) - 4}" := by
  obtain ⟨hrow, hcolumn⟩ := row_and_column (y := y) hx
  unfold cellLabel guardWidth
  rw [hrow, hcolumn]
  rfl

/-- **A position of the destination ought to hold what its row and column around the block ought to
hold.** -/
theorem wanted_eq (hlength : setting.expected.length = harness.side * harness.side) :
    harness.wanted setting.sentinel setting.expected.toArray (y * harness.stride + x)
      = .ok (setting.want harness.side ((y : Int) - 1) ((x : Int) - 4)) := by
  obtain ⟨hrow, hcolumn⟩ := row_and_column (y := y) hx
  unfold wanted Setting.want guardWidth
  simp only [hrow, hcolumn]
  by_cases hin : 1 ≤ y ∧ y ≤ harness.side ∧ 4 ≤ x ∧ x < 4 + harness.side
  · obtain ⟨r, rfl⟩ : ∃ r, y = r + 1 := ⟨y - 1, by omega⟩
    obtain ⟨c, rfl⟩ : ∃ c, x = c + 4 := ⟨x - 4, by omega⟩
    have hat : (((r + 1 : Nat) : Int) - 1) * harness.side + (((c + 4 : Nat) : Int) - 4)
        = (r * harness.side + c : Nat) := by
      rw [show ((r + 1 : Nat) : Int) - 1 = r by omega, show ((c + 4 : Nat) : Int) - 4 = c by omega]
      push_cast
      rfl
    have hinside : r * harness.side + c < setting.expected.toArray.size := by
      have hlast : r * harness.side + harness.side ≤ harness.side * harness.side :=
        Sad.packed_row_le (show r < harness.side by omega)
      rw [List.size_toArray, hlength]
      omega
    rw [if_pos hin, if_pos (by omega), hat, Int.toNat_natCast, Nat.add_sub_cancel, Nat.add_sub_cancel,
      elementAt_eq_getD hinside 0]
    simp
  · rw [if_neg hin, if_neg (by omega)]
    rfl

omit hx in
/-- A position of the destination, as row and column from the block's origin. -/
theorem around_eq (sentinel : Sample s) (buffer : Array (Sample s)) :
    ({ harness.guarded sentinel with data := buffer } : Plane s).around ((y : Int) - 1) ((x : Int) - 4)
      = (buffer.getD (y * harness.stride + x) 0).toNat := by
  have hat : ((harness.stride + guardWidth : Nat) : Int) + ((y : Int) - 1) * harness.stride + ((x : Int) - 4)
      = (y * harness.stride + x : Nat) := by
    rw [guardWidth, Int.sub_mul]
    push_cast
    omega
  show (buffer.getD (((harness.stride + guardWidth : Nat) : Int) + ((y : Int) - 1) * harness.stride
    + ((x : Int) - 4)).toNat 0).toNat = _
  rw [hat, Int.toNat_natCast]

end Cells

/-- The comparison of one cell. -/
def Setting.trialAt (harness : IntraHarness s) (setting : Setting s) (name : String)
    (buffer : Array (Sample s)) (cell : Int × Int) : Report.Trial :=
  .equal setting.key name (setting.scenario.name ++ s!" row {cell.1} col {cell.2}")
    (setting.want harness.side cell.1 cell.2)
    (({ harness.guarded setting.sentinel with data := buffer } : Plane s).around cell.1 cell.2)

/-- **A walk over the destination is a walk over rows and columns around the block.** -/
theorem map_range_cells {α : Type} (harness : IntraHarness s) (f : Nat → α) (g : Int × Int → α)
    (h : ∀ y x, x < harness.stride → f (y * harness.stride + x) = g ((y : Int) - 1, (x : Int) - 4)) :
    (List.range harness.cellCount).map f = (cells harness.side).map g := by
  have hcount : harness.cellCount = (harness.side + 2) * harness.stride := Nat.mul_comm _ _
  have hstride : harness.stride = harness.side + 8 := rfl
  rw [hcount, range_mul, cells, List.map_flatMap, List.map_flatMap, ← hstride]
  rw [List.flatMap_def, List.flatMap_def]
  refine congrArg List.flatten (List.map_congr_left fun y _ => ?_)
  rw [List.map_map, List.map_map]
  exact List.map_congr_left fun x hx => h y x (List.mem_range.mp hx)

/-- **The trials of a candidate are the cells that it left, judged.** -/
theorem judged_trials (harness : IntraHarness s) {setting : Setting s}
    (hlength : setting.expected.length = harness.side * harness.side) (candidate : Implementation s)
    (answer : Option (Array (Sample s))) (h : setting.Answered harness candidate answer) :
    Judged (harness.trials setting candidate) (Setting.checks harness answer)
      (setting.failures harness candidate answer) := by
  cases h with
  | @intra run buffer hkernel hpainting hsize =>
    have hcount : (cells harness.side).length = harness.cellCount := by
      simp [cells, cellCount, stride, guardWidth, Nat.mul_comm]
    unfold trials
    rw [hkernel]
    simp only [hpainting]
    have hwalk := map_range_cells harness (fun i => do
        let want ← harness.wanted setting.sentinel setting.expected.toArray i
        pure (.equal setting.key candidate.name (harness.cellLabel setting.scenario i) want
          (buffer.toList.getD i 0).toNat))
      (fun cell => (.ok (setting.trialAt harness candidate.name buffer cell) : Outcome Report.Trial)) ?_
    · rw [mapIdx_eq_map_range _ _ 0, Array.length_toList, hsize, hwalk, Setting.checks, ← hcount]
      refine judged_map (setting.trialAt harness candidate.name buffer) (fun _ _ => rfl) ?_
      intro cell _
      exact different_eq _ _
    · intro y x hx
      rw [wanted_eq harness hx hlength, cellLabel_eq harness hx]
      have hread : buffer.toList.getD (y * harness.stride + x) 0 = buffer.getD (y * harness.stride + x) 0 := by
        rw [List.getD_eq_getElem?_getD, Array.getD_eq_getD_getElem?, Array.getElem?_toList]
      simp only [Outcome.ok_bind, Setting.trialAt, around_eq, hread]
      rfl
  | silent hkernel =>
    unfold trials
    cases hfn : candidate.kernel with
    | intra run =>
      rw [hfn] at hkernel
      exact absurd rfl hkernel
    | sad run | sadBounded run | sadX4 run | sadAvg run => exact Report.judged_nil

end IntraHarness

/-! ## §3. Runs. -/

/-- What a run of difference kernels comes to, for every list of candidates that answer. -/
structure SadHarness.Reports (harness : SadHarness s) (kind : KernelKind) (scenario : SadScenario)
    (next : SadHarness s) (setting : Setting s) (average : Nat) : Prop where
  average_eq : Reference.sadAvg harness.block setting.source (setting.loose.get 0) setting.second = .ok average
  run_adds : ∀ (candidates : List (Implementation s)) (answers : List Answers),
    List.Forall₂ setting.Answered candidates answers → ∀ report : Report,
      (harness.run kind candidates scenario report).1 = next ∧
      report.Adds (answers.map setting.checks).sum
        (List.zipWith (setting.failures average) candidates answers).flatten
        (harness.run kind candidates scenario report).2

/-- What a run of predictors comes to, for every list of candidates that answer. -/
structure IntraHarness.Reports (harness : IntraHarness s) (kernel : IntraKernel)
    (scenario : IntraScenario) (next : IntraHarness s) (setting : Setting s) : Prop where
  run_adds : ∀ (candidates : List (Implementation s)) (answers : List (Option (Array (Sample s)))),
    List.Forall₂ (setting.Answered harness) candidates answers → ∀ report : Report,
      (harness.run kernel candidates scenario report).1 = next ∧
      report.Adds (answers.map (Setting.checks harness)).sum
        (List.zipWith (setting.failures harness) candidates answers).flatten
        (harness.run kernel candidates scenario report).2

theorem SadHarness.Presents.reports {harness next : SadHarness s} {kind : KernelKind}
    {scenario : SadScenario} {buffers : SadBuffers s} {setting : Setting s}
    (h : harness.Presents kind scenario buffers next setting) :
    ∃ average, harness.Reports kind scenario next setting average := by
  have hcover : harness.block.area ≤ setting.second.size := h.second_fills.size_eq.ge
  have haverage := Sad.reference_sadAvg_of_fits h.source_isView.admits.fits
    (h.loose_isView 0).admits.fits hcover
  refine ⟨_, haverage, ?_⟩
  intro candidates answers hanswers report
  rw [run, h.present_eq]
  refine ⟨rfl, ?_⟩
  have hblock : setting.key.block = harness.block := by rw [h.key_eq]
  exact (judged_flatMap (judged_trials (hblock ▸ haverage)) hanswers).adds report

theorem IntraHarness.Presents.reports {harness next : IntraHarness s} {kernel : IntraKernel}
    {scenario : IntraScenario} {setting : Setting s} (h : harness.Presents kernel scenario next setting) :
    harness.Reports kernel scenario next setting where
  run_adds := by
    intro candidates answers hanswers report
    rw [run, h.present_eq]
    exact ⟨rfl, (judged_flatMap (harness.judged_trials h.length_eq) hanswers).adds report⟩

/-- **A harness reports every difference on the inputs that it builds, and nothing else.**  Whatever
the stream draws, every scenario is presented, and the comparisons and failures that a run adds are
those that the candidates' answers call for, candidate after candidate. -/
theorem harnesses_report_exactly_the_differences :
    (∀ (s : Storage) (harness : SadHarness s) (kind : KernelKind) (scenario : SadScenario),
      ∃ buffers next setting average, harness.Presents kind scenario buffers next setting ∧
        harness.Reports kind scenario next setting average) ∧
    ∀ (s : Storage) (harness : IntraHarness s) (kernel : IntraKernel) (scenario : IntraScenario),
      ∃ next setting, harness.Presents kernel scenario next setting ∧
        harness.Reports kernel scenario next setting := by
  constructor
  · intro s harness kind scenario
    obtain ⟨buffers, next, setting, hpresents⟩ := harness.present_presents kind scenario
    obtain ⟨average, hreports⟩ := hpresents.reports
    exact ⟨buffers, next, setting, average, hpresents, hreports⟩
  · intro s harness kernel scenario
    obtain ⟨next, setting, hpresents⟩ := harness.present_presents kernel scenario
    exact ⟨next, setting, hpresents, hpresents.reports⟩

/-- A harness for predictors of blocks of side four. -/
def smallHarness : IntraHarness .byte where
  block := .b4x4
  depth := .eight
  stored := rfl
  square := rfl
  draws := fun _ => 0

/-- What it shows under a border of zeros. -/
def zeroSetting : IntraHarness.Setting .byte where
  key := ⟨⟨.intra .v, .b4x4⟩, .eight⟩
  scenario := .zero
  edge := { topLeft := 0, above := Array.replicate 8 0, left := Array.replicate 4 0 }
  sentinel := 85
  expected := List.replicate 16 0

/-- A predictor that is right under a border of zeros, but for one sample in the row above the block. -/
def strayWriter : Implementation .byte where
  name := "stray"
  requires := .none
  kernel := .intra fun destination _ _ =>
    let painting := destination.paint (List.replicate 4 (List.replicate 4 0))
    ⟨painting.buffer.setIfInBounds 0 1, painting.outcome⟩

/-- The cells that it leaves. -/
def strayCells : Array (Sample .byte) :=
  ((smallHarness.guarded 85).paint (List.replicate 4 (List.replicate 4 0))).buffer.setIfInBounds 0 1

/-- Of 72 cells the one outside the block is reported, with the row and the column it is in. -/
theorem stray_write_is_reported :
    ∃ report, smallHarness.run .v [strayWriter] .zero {} = (smallHarness, report, .ok ()) ∧
      report.checks = 72 ∧
      report.failures
        = #[⟨⟨⟨.intra .v, .b4x4⟩, .eight⟩, "stray", "zero row -1 col -4", 85, 1⟩] := by
  obtain ⟨next, setting, hpresents, hreports⟩ :=
    harnesses_report_exactly_the_differences.2 .byte smallHarness .v .zero
  have hshown : smallHarness.present .v .zero = .ok (smallHarness, zeroSetting) := rfl
  obtain ⟨rfl, rfl⟩ := Prod.mk.inj (Except.ok.inj (hpresents.present_eq.symm.trans hshown))
  have hadds := hreports.run_adds [strayWriter] [some strayCells] (.cons (.intra rfl rfl rfl) .nil) {}
  exact ⟨_, Prod.ext hadds.1 (hadds.2.counted (by decide)), rfl, rfl⟩

end PixelKernels
