/-
  PixelKernels.Proofs.BoundedCosts
  ────────────────────────────────
  **A COST THAT MAY STOP EARLY STILL TELLS ON WHICH SIDE OF THE BOUND IT IS.**

  The portable kernel walks down the rows and stops after the first one at
  which its running sum is above the bound.  The wide kernel always goes to
  the end.  They return different numbers, but both keep one promise,
  `Sad.MeetsBound`: exact up to the bound, and beyond it strictly above the
  bound without ever exceeding the true cost.

    • The walk returns the cost of some number of whole rows, and says which
      (`Sad.StopsAfter`, `addRowsUntil_eq`), by induction on the rows left.
    • Rows only add, so wherever the walk stops the promise is kept
      (`Sad.StopsAfter.meetsBound`).
    • Hence all levels agree on whether the bound was exceeded, and at the
      largest bound a bounded cost is a plain one.
-/
import PixelKernels.Proofs.ExactCosts

namespace PixelKernels

open Finset
open Sad (cost)

variable {s : Storage}

/-! ## §1. The promise. -/

namespace Sad

/-- What a bounded cost promises: the exact cost if that is at most the bound, and otherwise something
above the bound that is not above the exact cost. -/
structure MeetsBound (exact bound answer : Nat) : Prop where
  exact_of_le : exact ≤ bound → answer = exact
  above_of_lt : bound < exact → bound < answer
  le_exact : answer ≤ exact

variable {exact bound answer : Nat}

/-- The exact cost keeps the promise, whatever the bound. -/
theorem meetsBound_self (exact bound : Nat) : MeetsBound exact bound exact where
  exact_of_le := fun _ => rfl
  above_of_lt := fun h => h
  le_exact := Nat.le_refl exact

/-- **An answer is above the bound exactly if the exact cost is.** -/
theorem MeetsBound.lt_iff (h : MeetsBound exact bound answer) : bound < answer ↔ bound < exact := by
  constructor
  · intro habove
    exact Nat.lt_of_lt_of_le habove h.le_exact
  · exact h.above_of_lt

/-- The least that is asked of a bounded cost: exact up to the bound, and past it not less than the
bound. -/
def RespectsBound (exact bound answer : Nat) : Prop :=
  (exact ≤ bound → answer = exact) ∧ (bound < exact → bound ≤ answer)

instance (exact bound answer : Nat) : Decidable (RespectsBound exact bound answer) :=
  inferInstanceAs (Decidable (_ ∧ _))

theorem MeetsBound.respects (h : MeetsBound exact bound answer) : RespectsBound exact bound answer :=
  ⟨h.exact_of_le, fun hlt => Nat.le_of_lt (h.above_of_lt hlt)⟩

/-! ## §2. The walk down the rows. -/

/-- A running sum over `height` rows, looked at after each, is stopped by the bound after `k` rows: it
was not above the bound before, and it is now unless no row is left. -/
structure StopsAfter (sumOf : Nat → Nat) (bound height k : Nat) : Prop where
  le_height : k ≤ height
  below : ∀ j < k, sumOf j ≤ bound
  above : k < height → bound < sumOf k

/-- **A sum that only grows keeps the promise wherever the bound stops it.** -/
theorem StopsAfter.meetsBound {sumOf : Nat → Nat} {height k : Nat} (hgrows : Monotone sumOf)
    (h : StopsAfter sumOf bound height k) : MeetsBound (sumOf height) bound (sumOf k) := by
  have hle : sumOf k ≤ sumOf height := hgrows h.le_height
  rcases Nat.lt_or_eq_of_le h.le_height with hk | rfl
  · -- stopped on the way, so the sum is above the bound, and so is the whole
    have habove := h.above hk
    exact ⟨fun hexact => by omega, fun _ => habove, hle⟩
  · exact meetsBound_self _ bound

/-- Only the sums up to the last row that was looked at matter. -/
theorem StopsAfter.congr {f g : Nat → Nat} {height k : Nat} (h : StopsAfter f bound height k)
    (hagree : ∀ i ≤ k, f i = g i) : StopsAfter g bound height k where
  le_height := h.le_height
  below := by
    intro j hj
    rw [← hagree j (Nat.le_of_lt hj)]
    exact h.below j hj
  above := by
    rw [← hagree k (Nat.le_refl k)]
    exact h.above

/-- **A higher bound never stops a sum earlier.** -/
theorem StopsAfter.le_of_le {f : Nat → Nat} {bound' height j k : Nat}
    (hj : StopsAfter f bound height j) (hk : StopsAfter f bound' height k) (hle : bound ≤ bound') :
    j ≤ k := by
  by_contra hlt
  -- the lower bound let the walk go on past a sum that is above the higher one
  have hbelow := hj.below k (by omega)
  have hheight := hj.le_height
  have habove := hk.above (by omega)
  omega

/-- **A sum is stopped after one row only.** -/
theorem StopsAfter.unique {f : Nat → Nat} {height j k : Nat} (hj : StopsAfter f bound height j)
    (hk : StopsAfter f bound height k) : j = k :=
  Nat.le_antisymm (hj.le_of_le hk (Nat.le_refl bound)) (hk.le_of_le hj (Nat.le_refl bound))

/-- A sum over the first rows only grows with their number. -/
theorem monotone_sum_rows (rows : Nat → Nat) : Monotone fun k => ∑ y ∈ range k, rows y := by
  intro j k hjk
  exact sum_le_sum_of_subset (range_subset_range.mpr hjk)

end Sad

namespace Sad.Portable

/-- **The walk returns the sum of the rows after which the bound stops it.** -/
theorem addRowsUntil_eq {cost : Nat → Outcome Nat} {rows : Nat → Nat} {height : Nat} (bound : Nat)
    (hcost : ∀ y < height, cost y = .ok (rows y)) (hlt : ∑ i ∈ range height, rows i < 1 <<< 32) :
    ∀ n y, y + n = height → (∀ j ≤ y, ∑ i ∈ range j, rows i ≤ bound) →
      ∃ k, StopsAfter (fun k => ∑ i ∈ range k, rows i) bound height k ∧
        addRowsUntil cost bound (List.range' y n) (∑ i ∈ range y, rows i)
          = .ok (∑ i ∈ range k, rows i) := by
  intro n
  -- induction on the rows that are left; no sum so far is above the bound
  induction n with
  | zero =>
    intro y hy hbelow
    exact ⟨y, ⟨by omega, fun j hj => hbelow j (by omega), fun h => by omega⟩, rfl⟩
  | succ n ih =>
    intro y hy hbelow
    have hstep : ∑ i ∈ range (y + 1), rows i < 1 <<< 32 :=
      Nat.lt_of_le_of_lt (Sad.monotone_sum_rows rows (by omega)) hlt
    rw [sum_range_succ] at hstep
    rw [List.range'_succ]
    show ∃ k, _ ∧ (cost y >>= fun row => asUInt32 ((∑ i ∈ range y, rows i) + row) >>= fun total =>
      if bound < total then pure total else addRowsUntil cost bound (List.range' (y + 1) n) total) = _
    rw [hcost y (by omega), Outcome.ok_bind, asUInt32_of_lt hstep, Outcome.ok_bind, ← sum_range_succ]
    by_cases hstop : bound < ∑ i ∈ range (y + 1), rows i
    · -- this row exceeds the bound: the walk ends with it
      rw [if_pos hstop]
      exact ⟨y + 1, ⟨by omega, fun j hj => hbelow j (by omega), fun _ => hstop⟩, rfl⟩
    · rw [if_neg hstop]
      refine ih (y + 1) (by omega) fun j hj => ?_
      rcases Nat.lt_or_eq_of_le hj with hj | rfl
      · exact hbelow j (by omega)
      · exact Nat.le_of_not_lt hstop

/-! ## §3. The two kernels. -/

variable {width height : Nat} {source reference : Plane s}

/-- **The portable bounded cost is the cost of the rows after which the bound stops it.** -/
theorem sadBounded_of_fits (hw : width ≤ 64) (hh : height ≤ 64)
    (hs : source.fits width height = .ok true) (hr : reference.fits width height = .ok true)
    (bound : Nat) :
    ∃ k, StopsAfter (fun k => Sad.cost width k source.pixel reference.pixel) bound height k ∧
      sadBounded width height source reference bound
        = .ok (Sad.cost width k source.pixel reference.pixel) := by
  have hsource := Plane.holds_of_fits (by omega) (by omega) hs
  have hreference := Plane.holds_of_fits (by omega) (by omega) hr
  have hlt := cost_lt hw hh source.pixel reference.pixel
  obtain ⟨k, hstops, hwalk⟩ := addRowsUntil_eq bound
    (fun y hy => rowCostAt_of_holds hw hsource hreference hy) hlt height 0 (by omega)
    fun j hj => by rw [Nat.le_zero.mp hj]; exact Nat.zero_le bound
  refine ⟨k, hstops, ?_⟩
  rw [sadBounded, Plane.assertFits_of_fits hs, Outcome.ok_bind, Plane.assertFits_of_fits hr,
    Outcome.ok_bind, List.range_eq_range']
  exact hwalk

-- two rows of sixteen at the greatest distance, and then it stops
example : sadBounded 16 16 (⟨Array.replicate 16 255, 0, 0⟩ : Plane .byte)
    ⟨Array.replicate 16 0, 0, 0⟩ 5000 = .ok 8160 := by
  decide +kernel

end Sad.Portable

namespace Kernels

variable {depth : Depth} {block : BlockSize}

/-- **Both bounded kernels answer a call that is let through, and keep the promise.** -/
theorem run_sadBounded (processor : Processor) {source reference : Plane s}
    (hs : Admits depth block source) (hr : Admits depth block reference) (bound : Nat) :
    ∃ answer, (if runsWide processor block then Sad.Wide.sadBounded block.width block.height
        else Sad.Portable.sadBounded block.width block.height) source reference bound = .ok answer ∧
      Sad.MeetsBound (cost block.width block.height source.pixel reference.pixel) bound answer := by
  by_cases hwide : runsWide processor block = true
  · -- the wide kernel is the one without a bound
    have hanswer := run_sad processor hs hr
    rw [if_pos hwide] at hanswer ⊢
    exact ⟨_, hanswer, Sad.meetsBound_self _ bound⟩
  · rw [if_neg hwide]
    obtain ⟨k, hstops, hanswer⟩ :=
      Sad.Portable.sadBounded_of_fits block.width_le block.height_le hs.fits hr.fits bound
    exact ⟨_, hanswer, hstops.meetsBound (Sad.monotone_sum_rows _)⟩

/-! ## §4. The entry point. -/

section Answers

variable {kernels : Kernels} {processor : Processor} (h : kernels.Selects processor)
include h

/-- A bounded cost that is let through is answered, and the answer keeps the promise. -/
theorem sadBounded_of_admits (hdepth : depth.storage = s)
    (hblock : KernelKind.sadBounded.supports block = true) {source reference : Plane s}
    (hs : Admits depth block source) (hr : Admits depth block reference) (bound : Nat) :
    ∃ answer, kernels.sadBounded depth block source reference bound = .ok answer ∧
      Sad.MeetsBound (cost block.width block.height source.pixel reference.pixel) bound answer := by
  have hchecks := checkSadBounded_eq_ok_iff.mpr ⟨hblock, hs, hr⟩
  rw [sadBounded, admitSadBounded_eq h hdepth, hchecks]
  exact run_sadBounded processor hs hr bound

/-- **At the largest bound a bounded cost is a plain one**, faults included. -/
theorem sadBounded_uint32Max (hblock : KernelKind.sadBounded.supports block = true)
    (source reference : Plane s) :
    kernels.sadBounded depth block source reference uint32Max
      = kernels.sad depth block source reference := by
  by_cases hdepth : depth.storage = s
  · rw [sadBounded, admitSadBounded_eq h hdepth, checkSadBounded, hblock, Outcome.require_true,
      Outcome.ok_bind, sad_eq h hdepth]
    cases hchecks : requirePair depth block source reference with
    | error fault => rfl
    | ok _ =>
      obtain ⟨hs, hr⟩ := requirePair_eq_ok_iff.mp hchecks
      obtain ⟨answer, hanswer, hmeets⟩ := run_sadBounded processor hs hr uint32Max
      have hlt := Sad.cost_lt block.width_le block.height_le source.pixel reference.pixel
      -- no cost is above the largest bound
      rw [Outcome.ok_bind, ← hmeets.exact_of_le (Nat.le_of_lt_succ hlt)]
      exact hanswer
  · rw [sad_of_ne kernels hdepth, sadBounded_of_ne kernels hdepth]

end Answers

end Kernels

/-! ## §5. Any two levels. -/

/-- **At every level a bounded cost keeps its promise, all levels agree on whether the bound was
exceeded, and at the largest bound the call is the one without a bound.** -/
theorem bounded_costs_keep_their_promise (processor : Processor) (a b : CpuLevel) :
    ∃ first second, Kernels.atLevel processor a = .ok first ∧ Kernels.atLevel processor b = .ok second ∧
      ∀ (s : Storage) (depth : Depth) (block : BlockSize) (source reference : Plane s),
        KernelKind.sadBounded.supports block = true →
          first.sadBounded depth block source reference uint32Max
              = first.sad depth block source reference ∧
          ∀ run, first.admitSadBounded depth block source reference = .ok run →
            source.base < 1 <<< 64 → reference.base < 1 <<< 64 →
              ∀ bound, ∃ answer₁ answer₂,
                first.sadBounded depth block source reference bound = .ok answer₁ ∧
                second.sadBounded depth block source reference bound = .ok answer₂ ∧
                Sad.MeetsBound (Sad.exact block source reference) bound answer₁ ∧
                Sad.MeetsBound (Sad.exact block source reference) bound answer₂ ∧
                (bound < answer₁ ↔ bound < Sad.exact block source reference) ∧
                (bound < answer₁ ↔ bound < answer₂) := by
  obtain ⟨first, hfirst, h₁⟩ := Kernels.atLevel_selects processor a
  obtain ⟨second, hsecond, h₂⟩ := Kernels.atLevel_selects processor b
  refine ⟨first, second, hfirst, hsecond, ?_⟩
  intro s depth block source reference hblock
  refine ⟨Kernels.sadBounded_uint32Max h₁ hblock source reference, ?_⟩
  intro run hrun hsource hreference bound
  -- the checks are the same at both levels, so what one lets through the other does too
  obtain ⟨hdepth, hchecks, _⟩ := (Kernels.admitSadBounded_iff h₁).mp hrun
  obtain ⟨_, hs, hr⟩ := Kernels.checkSadBounded_eq_ok_iff.mp hchecks
  obtain ⟨answer₁, hanswer₁, hmeets₁⟩ := Kernels.sadBounded_of_admits h₁ hdepth hblock hs hr bound
  obtain ⟨answer₂, hanswer₂, hmeets₂⟩ := Kernels.sadBounded_of_admits h₂ hdepth hblock hs hr bound
  rw [cost_eq_exact hs hr hsource hreference] at hmeets₁ hmeets₂
  exact ⟨answer₁, answer₂, hanswer₁, hanswer₂, hmeets₁, hmeets₂, hmeets₁.lt_iff,
    hmeets₁.lt_iff.trans hmeets₂.lt_iff.symm⟩

/-- One bright row, read over and over. -/
def brightRow : Plane .byte := ⟨Array.replicate 16 255, 0, 0⟩

/-- One dark row, read over and over. -/
def darkRow : Plane .byte := ⟨Array.replicate 16 0, 0, 0⟩

/-- A bound that two rows of sixteen exceed: the scalar level stops there and the third goes on, and
both are above it. -/
theorem bounded_cost_of_brightRow :
    KernelKind.sadBounded.supports .b16x16 = true ∧ brightRow.base < 1 <<< 64 ∧
      darkRow.base < 1 <<< 64 ∧
    ∃ scalar third run, Kernels.atLevel .full .scalar = .ok scalar ∧
      Kernels.atLevel .full .v3 = .ok third ∧
      scalar.admitSadBounded .eight .b16x16 brightRow darkRow = .ok run ∧
      ∃ answer₁ answer₂, scalar.sadBounded .eight .b16x16 brightRow darkRow 5000 = .ok answer₁ ∧
        third.sadBounded .eight .b16x16 brightRow darkRow 5000 = .ok answer₂ ∧
        5000 < answer₁ ∧ 5000 < answer₂ := by
  obtain ⟨scalar, third, hscalar, hthird, hcalls⟩ :=
    bounded_costs_keep_their_promise .full .scalar .v3
  have h₁ : scalar.Selects _ := Kernels.selects_of_atLevel hscalar
  have hs : Kernels.Admits .eight .b16x16 brightRow := ⟨rfl, Kernels.inRange_eight _⟩
  have hr : Kernels.Admits .eight .b16x16 darkRow := ⟨rfl, Kernels.inRange_eight _⟩
  have hchecks : Kernels.checkSadBounded .eight .b16x16 brightRow darkRow = .ok () :=
    Kernels.checkSadBounded_eq_ok_iff.mpr ⟨by decide, hs, hr⟩
  have hrun := (Kernels.admitSadBounded_iff h₁).mpr ⟨rfl, hchecks, rfl⟩
  obtain ⟨answer₁, answer₂, hanswer₁, hanswer₂, _, _, hexceeds, hagree⟩ :=
    (hcalls .byte .eight .b16x16 brightRow darkRow (by decide)).2 _ hrun (by decide) (by decide) 5000
  have habove : 5000 < Sad.exact .b16x16 brightRow darkRow := by decide +kernel
  exact ⟨by decide, by decide, by decide, scalar, third, _, hscalar, hthird, hrun, answer₁, answer₂,
    hanswer₁, hanswer₂, hexceeds.mpr habove, hagree.mp (hexceeds.mpr habove)⟩

end PixelKernels
