/-
  PixelKernels.Proofs.RecordedTrials
  ──────────────────────────────────
  **WHAT A REPORT IS AFTER A RUN.**

  A run is a list of comparisons, each of which may fault.  If none does, all
  of them are counted and the failed ones are appended in their order; the one
  thing that can still go wrong is the counter (`Report.Adds`).

    • The walk over the comparisons, by induction on them
      (`recordAll_of_room`, `recordAll_of_full`).
    • Runs of several candidates, by induction on the candidates
      (`judged_flatMap`).
-/
import PixelKernels.Conformance.Report
import PixelKernels.Proofs.Sequences

namespace PixelKernels.Report

/-! ## §1. Counting. -/

/-- The failures among these comparisons, in their order. -/
def mismatches (trials : List Trial) : List Mismatch :=
  (trials.filter fun trial => !trial.passed).map Trial.mismatch

theorem mismatches_append (first second : List Trial) :
    mismatches (first ++ second) = mismatches first ++ mismatches second := by
  unfold mismatches
  rw [List.filter_append, List.map_append]

/-- One comparison is recorded if the counter has room for it. -/
theorem record_of_room {report : Report} (trial : Trial) (h : report.checks + 1 < 1 <<< 64) :
    report.record trial
      = .ok ⟨report.checks + 1, report.failures ++ (mismatches [trial]).toArray⟩ := by
  rw [record, asUInt64, if_pos h, Outcome.ok_bind]
  cases hpassed : trial.passed with
  | true => simp [mismatches, hpassed, pure, Except.pure]
  | false => simp [mismatches, hpassed, pure, Except.pure]

theorem record_of_full {report : Report} (trial : Trial) (h : ¬ report.checks + 1 < 1 <<< 64) :
    report.record trial = .error .overflow := by
  rw [record, asUInt64, if_neg h]
  rfl

/-- **Comparisons without a fault are all counted, and the failed ones are kept in their order.** -/
theorem recordAll_of_room {trials : List Trial} :
    ∀ {report : Report}, report.checks + trials.length < 1 <<< 64 →
      report.recordAll (trials.map .ok)
        = (⟨report.checks + trials.length, report.failures ++ (mismatches trials).toArray⟩, .ok ()) := by
  induction trials with
  | nil =>
    intro report _
    show (report, _) = _
    simp [mismatches]
  | cons trial rest ih =>
    intro report hroom
    rw [List.length_cons] at hroom
    rw [List.map_cons, recordAll, Outcome.ok_bind, record_of_room trial (by omega)]
    show recordAll _ (rest.map .ok) = _
    rw [ih (by show report.checks + 1 + rest.length < _; omega)]
    -- the first comparison and the rest of them, put together
    have hcons : mismatches (trial :: rest) = mismatches [trial] ++ mismatches rest :=
      mismatches_append [trial] rest
    refine Prod.ext (congrArg₂ Report.mk ?_ ?_) rfl
    · show report.checks + 1 + rest.length = report.checks + (rest.length + 1)
      omega
    · rw [hcons]
      simp

/-- A counter that cannot hold all comparisons ends the run. -/
theorem recordAll_of_full {trials : List Trial} :
    ∀ {report : Report}, ¬ report.checks + trials.length < 1 <<< 64 → trials ≠ [] →
      (report.recordAll (trials.map .ok)).2 = .error .overflow := by
  induction trials with
  | nil =>
    intro report _ hsome
    exact absurd rfl hsome
  | cons trial rest ih =>
    intro report hfull _
    rw [List.length_cons] at hfull
    rw [List.map_cons, recordAll, Outcome.ok_bind]
    by_cases hroom : report.checks + 1 < 1 <<< 64
    · rw [record_of_room trial hroom]
      refine ih (by show ¬ report.checks + 1 + rest.length < _; omega) ?_
      rintro rfl
      exact hfull hroom
    · rw [record_of_full trial hroom]

/-! ## §2. Comparisons that come to an end. -/

/-- What a report is after `made` more comparisons of which these failed; a counter that cannot hold
them ends the run. -/
structure Adds (report : Report) (made : Nat) (found : List Mismatch) (after : Report × Outcome Unit) :
    Prop where
  counted : report.checks + made < 1 <<< 64 →
    after = (⟨report.checks + made, report.failures ++ found.toArray⟩, .ok ())
  full : ¬ report.checks + made < 1 <<< 64 → 0 < made → after.2 = .error .overflow

/-- Comparisons without a fault: how many there are, and which of them fail. -/
def Judged (trials : List (Outcome Trial)) (made : Nat) (found : List Mismatch) : Prop :=
  ∃ results : List Trial, trials = results.map .ok ∧ results.length = made ∧ mismatches results = found

/-- **What is judged is recorded.** -/
theorem Judged.adds {trials : List (Outcome Trial)} {made : Nat} {found : List Mismatch}
    (h : Judged trials made found) (report : Report) :
    report.Adds made found (report.recordAll trials) := by
  obtain ⟨results, rfl, rfl, rfl⟩ := h
  exact ⟨recordAll_of_room, fun hfull hpos => recordAll_of_full hfull (List.ne_nil_of_length_pos hpos)⟩

theorem judged_nil : Judged [] 0 [] := ⟨[], rfl, rfl, rfl⟩

theorem Judged.append {first second : List (Outcome Trial)} {made more : Nat}
    {found others : List Mismatch} (hfirst : Judged first made found)
    (hsecond : Judged second more others) :
    Judged (first ++ second) (made + more) (found ++ others) := by
  obtain ⟨results, rfl, rfl, rfl⟩ := hfirst
  obtain ⟨rest, rfl, rfl, rfl⟩ := hsecond
  exact ⟨results ++ rest, by rw [List.map_append], List.length_append, mismatches_append results rest⟩

/-- **What is judged candidate by candidate is judged as a whole.** -/
theorem judged_flatMap {Candidate Answer : Type} {answered : Candidate → Answer → Prop}
    {trials : Candidate → List (Outcome Trial)} {made : Answer → Nat}
    {found : Candidate → Answer → List Mismatch}
    (h : ∀ candidate answer, answered candidate answer →
      Judged (trials candidate) (made answer) (found candidate answer))
    {candidates : List Candidate} {answers : List Answer}
    (hanswers : List.Forall₂ answered candidates answers) :
    Judged (candidates.flatMap trials) (answers.map made).sum
      (List.zipWith found candidates answers).flatten := by
  induction hanswers with
  | nil => exact judged_nil
  | cons hanswer _ ih => exact (h _ _ hanswer).append ih

/-- Candidates that each have an answer without a failure have such answers as a whole. -/
theorem exists_answers {Candidate Answer : Type} {answered : Candidate → Answer → Prop}
    {made : Answer → Nat} {found : Candidate → Answer → List Mismatch} {most : Nat}
    {candidates : List Candidate}
    (h : ∀ candidate ∈ candidates, ∃ answer, answered candidate answer ∧
      found candidate answer = [] ∧ made answer ≤ most) :
    ∃ answers, List.Forall₂ answered candidates answers ∧
      (List.zipWith found candidates answers).flatten = [] ∧
      (answers.map made).sum ≤ most * candidates.length := by
  induction candidates with
  | nil => exact ⟨[], .nil, rfl, Nat.zero_le _⟩
  | cons candidate rest ih =>
    obtain ⟨answer, hanswer, hfound, hmade⟩ := h candidate List.mem_cons_self
    obtain ⟨answers, hanswers, hnone, hsum⟩ := ih fun c hc => h c (List.mem_cons_of_mem candidate hc)
    refine ⟨answer :: answers, .cons hanswer hanswers, ?_, ?_⟩
    · rw [List.zipWith_cons_cons, List.flatten_cons, hfound, hnone, List.append_nil]
    · rw [List.map_cons, List.sum_cons, List.length_cons, Nat.mul_succ]
      omega

/-- A loop of comparisons, one for each element of a list. -/
theorem judged_map {α : Type} (result : α → Trial) {trial : α → Outcome Trial} {wrong : α → Bool}
    {l : List α} (htrial : ∀ a ∈ l, trial a = .ok (result a))
    (hwrong : ∀ a ∈ l, (!(result a).passed) = wrong a) :
    Judged (l.map trial) l.length ((l.filter wrong).map fun a => (result a).mismatch) := by
  refine ⟨l.map result, ?_, List.length_map _, ?_⟩
  · rw [List.map_map]
    exact List.map_congr_left htrial
  · rw [mismatches, List.filter_map, List.map_map, ← List.filter_congr hwrong]
    rfl

end PixelKernels.Report
