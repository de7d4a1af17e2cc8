/-
  PixelKernels.Proofs.RoundingLaws
  ────────────────────────────────
  **THE AVERAGES ARE EXACT RATIONALS, ROUNDED HALF UP.**

  An average adds half of its divisor and then divides, downwards.  That is
  `round` of the exact quotient (`round_div`), where `round` sends a half up.
  The additions are checked one after another, but no intermediate value is
  above the last one, so an average overflows exactly where that one does:

      avg2 x y      2^32 ≤ x + y + 1
      avg3 x y z    2^32 ≤ x + 2y + z + 2
      round2 v s    32 ≤ s, or 1 ≤ s and 2^32 ≤ v + 2^(s-1)

  The kernels need the answers (`avg2_eq_ok_iff` and its siblings); `RoundsTo`
  puts overflow and rounding together.
-/
import PixelKernels.Proofs.Sequences
import PixelKernels.Rounding

namespace PixelKernels

/-! ## §1. Where the averages answer. -/

theorem avg2_eq_ok_iff {x y v : Nat} :
    avg2 x y = .ok v ↔ x + y + 1 < 2 ^ 32 ∧ (x + y + 1) / 2 = v := by
  unfold avg2
  simp only [Outcome.bind_eq_ok_iff, asUInt32_eq_ok_iff]
  constructor
  · rintro ⟨_, ⟨rfl, _⟩, _, ⟨rfl, hlt⟩, hv⟩
    exact ⟨hlt, Except.ok.inj hv⟩
  · rintro ⟨hlt, rfl⟩
    exact ⟨_, ⟨rfl, by omega⟩, _, ⟨rfl, hlt⟩, rfl⟩

theorem avg3_eq_ok_iff {x y z v : Nat} :
    avg3 x y z = .ok v ↔ x + 2 * y + z + 2 < 2 ^ 32 ∧ (x + 2 * y + z + 2) / 4 = v := by
  unfold avg3
  simp only [Outcome.bind_eq_ok_iff, asUInt32_eq_ok_iff]
  constructor
  · rintro ⟨_, ⟨rfl, _⟩, _, ⟨rfl, _⟩, _, ⟨rfl, _⟩, _, ⟨rfl, hlt⟩, hv⟩
    exact ⟨hlt, Except.ok.inj hv⟩
  · rintro ⟨hlt, rfl⟩
    exact ⟨_, ⟨rfl, by omega⟩, _, ⟨rfl, by omega⟩, _, ⟨rfl, by omega⟩, _, ⟨rfl, hlt⟩, rfl⟩

theorem round2_of_pos {v shift : Nat} (hpos : 0 < shift) (hlt : shift < 32) :
    round2 v shift = (do
      let sum ← asUInt32 (v + 2 ^ shift / 2)
      pure (sum / 2 ^ shift)) := by
  have hhalf : 1 <<< (shift - 1) = 2 ^ shift / 2 := by
    rw [Nat.one_shiftLeft, Nat.pow_div hpos (by decide)]
  unfold round2
  rw [if_neg (by omega), if_neg (by omega), hhalf]
  simp only [Nat.shiftRight_eq_div_pow]

theorem round2_eq_ok_iff {v shift w : Nat} :
    round2 v shift = .ok w ↔ (shift = 0 ∨ shift < 32 ∧ v + 2 ^ shift / 2 < 2 ^ 32) ∧
      (v + 2 ^ shift / 2) / 2 ^ shift = w := by
  -- no shift, a shift inside the word, or one past it
  rcases Nat.eq_zero_or_pos shift with rfl | hpos
  · simp [round2]
  · by_cases hlt : shift < 32
    · rw [round2_of_pos hpos hlt]
      simp only [Outcome.bind_eq_ok_iff, asUInt32_eq_ok_iff]
      constructor
      · rintro ⟨_, ⟨rfl, hfits⟩, hw⟩
        exact ⟨.inr ⟨hlt, hfits⟩, Except.ok.inj hw⟩
      · rintro ⟨hfits, rfl⟩
        exact ⟨_, ⟨rfl, by omega⟩, rfl⟩
    · rw [round2, if_neg (by omega), if_pos (by omega)]
      refine iff_of_false (by simp) ?_
      omega

/-! ## §2. Rounding half up. -/

/-- Division after adding half of the divisor is at most half a divisor too high. -/
theorem mul_div_add_half_le (n d : Nat) : 2 * (d * ((n + d / 2) / d)) ≤ 2 * n + d := by
  have hdiv := Nat.mul_div_le (n + d / 2) d
  omega

/-- It is less than half a divisor too low. -/
theorem lt_mul_div_add_half (n : Nat) {d : Nat} (hd : 0 < d) :
    2 * n < 2 * (d * ((n + d / 2) / d)) + d := by
  have hdiv := Nat.lt_mul_div_succ (n + d / 2) hd
  rw [Nat.mul_succ] at hdiv
  omega

/-- **Division after adding half of the divisor is off by at most half, and by half only upwards.** -/
theorem mul_div_add_half_within (n : Nat) {d : Nat} (hd : 0 < d) :
    (n : ℚ) - d / 2 < d * ((n + d / 2) / d : Nat) ∧
      (d * ((n + d / 2) / d : Nat) : ℚ) ≤ n + d / 2 := by
  have hlow : ((2 * n : Nat) : ℚ) < (2 * (d * ((n + d / 2) / d)) + d : Nat) :=
    Nat.cast_lt.mpr (lt_mul_div_add_half n hd)
  have hhigh : ((2 * (d * ((n + d / 2) / d)) : Nat) : ℚ) ≤ (2 * n + d : Nat) :=
    Nat.cast_le.mpr (mul_div_add_half_le n d)
  simp only [Nat.cast_mul, Nat.cast_add, Nat.cast_ofNat] at hlow hhigh
  constructor
  · linarith only [hlow]
  · linarith only [hhigh]

/-- **It rounds the exact quotient, a half upwards.** -/
theorem round_div (n : Nat) {d : Nat} (hd : 0 < d) :
    round ((n : ℚ) / d) = ((n + d / 2) / d : Nat) := by
  obtain ⟨hlow, hhigh⟩ := mul_div_add_half_within n hd
  have hd' : (0 : ℚ) < d := Nat.cast_pos.mpr hd
  rw [round_eq_iff, Set.mem_Ico, le_div_iff₀ hd', div_lt_iff₀ hd', Int.cast_natCast]
  constructor
  · linarith only [hhigh]
  · linarith only [hlow]

/-- A checked computation overflows exactly under a condition, and otherwise answers with a rational
rounded half up. -/
structure RoundsTo (answer : Outcome Nat) (quotient : ℚ) (overflows : Prop) : Prop where
  overflow_iff : answer = .error .overflow ↔ overflows
  rounded : ¬ overflows → ∃ v : Nat, answer = .ok v ∧ (v : ℤ) = round quotient

theorem roundsTo_of_eq_ok_iff {answer : Outcome Nat} {n d : Nat} {overflows : Prop} (hd : 0 < d)
    (hfaults : Outcome.FaultsOnlyWith .overflow answer)
    (h : ∀ v, answer = .ok v ↔ ¬ overflows ∧ (n + d / 2) / d = v) :
    RoundsTo answer ((n : ℚ) / d) overflows := by
  have hok : ¬ overflows → answer = .ok ((n + d / 2) / d) := fun hfits => (h _).mpr ⟨hfits, rfl⟩
  refine ⟨⟨fun herror => ?_, fun hover => ?_⟩, fun hfits => ⟨_, hok hfits, (round_div n hd).symm⟩⟩
  · by_contra hfits
    rw [hok hfits] at herror
    cases herror
  · cases hanswer : answer with
    | ok v => exact absurd hover ((h v).mp hanswer).1
    | error fault => rw [hfaults fault hanswer]

/-! ## §3. The averages. -/

theorem faultsOnlyWith_asUInt32 (n : Nat) : Outcome.FaultsOnlyWith .overflow (asUInt32 n) := by
  intro found h
  unfold asUInt32 at h
  split at h
  · cases h
  · cases h
    rfl

theorem faultsOnlyWith_avg2 (x y : Nat) : Outcome.FaultsOnlyWith .overflow (avg2 x y) :=
  Outcome.faultsOnlyWith_bind (faultsOnlyWith_asUInt32 _) fun _ =>
    Outcome.faultsOnlyWith_bind (faultsOnlyWith_asUInt32 _) fun _ => Outcome.faultsOnlyWith_ok _ _

theorem faultsOnlyWith_avg3 (x y z : Nat) : Outcome.FaultsOnlyWith .overflow (avg3 x y z) :=
  Outcome.faultsOnlyWith_bind (faultsOnlyWith_asUInt32 _) fun _ =>
    Outcome.faultsOnlyWith_bind (faultsOnlyWith_asUInt32 _) fun _ =>
      Outcome.faultsOnlyWith_bind (faultsOnlyWith_asUInt32 _) fun _ =>
        Outcome.faultsOnlyWith_bind (faultsOnlyWith_asUInt32 _) fun _ => Outcome.faultsOnlyWith_ok _ _

theorem faultsOnlyWith_round2 (v shift : Nat) : Outcome.FaultsOnlyWith .overflow (round2 v shift) := by
  unfold round2
  split
  · exact Outcome.faultsOnlyWith_ok _ _
  · split
    · intro found h
      cases h
      rfl
    · exact Outcome.faultsOnlyWith_bind (faultsOnlyWith_asUInt32 _) fun _ =>
        Outcome.faultsOnlyWith_ok _ _

theorem avg2_roundsTo (x y : Nat) : RoundsTo (avg2 x y) ((x + y) / 2) (2 ^ 32 ≤ x + y + 1) := by
  have h : RoundsTo (avg2 x y) ((x + y : Nat) / (2 : Nat)) (2 ^ 32 ≤ x + y + 1) :=
    roundsTo_of_eq_ok_iff (by decide) (faultsOnlyWith_avg2 x y) fun v => by
      rw [Nat.not_le]
      exact avg2_eq_ok_iff
  exact_mod_cast h

theorem avg3_roundsTo (x y z : Nat) :
    RoundsTo (avg3 x y z) ((x + 2 * y + z) / 4) (2 ^ 32 ≤ x + 2 * y + z + 2) := by
  have h : RoundsTo (avg3 x y z) ((x + 2 * y + z : Nat) / (4 : Nat)) (2 ^ 32 ≤ x + 2 * y + z + 2) :=
    roundsTo_of_eq_ok_iff (by decide) (faultsOnlyWith_avg3 x y z) fun v => by
      rw [Nat.not_le]
      exact avg3_eq_ok_iff
  exact_mod_cast h

theorem round2_roundsTo (v shift : Nat) :
    RoundsTo (round2 v shift) (v / 2 ^ shift)
      (32 ≤ shift ∨ 1 ≤ shift ∧ 2 ^ 32 ≤ v + 2 ^ (shift - 1)) := by
  have hfits : (shift = 0 ∨ shift < 32 ∧ v + 2 ^ shift / 2 < 2 ^ 32)
      ↔ ¬ (32 ≤ shift ∨ 1 ≤ shift ∧ 2 ^ 32 ≤ v + 2 ^ (shift - 1)) := by
    rcases Nat.eq_zero_or_pos shift with rfl | hpos
    · simp
    · rw [show 2 ^ shift / 2 = 2 ^ (shift - 1) from Nat.pow_div hpos (by decide)]
      omega
  have h : RoundsTo (round2 v shift) (v / (2 ^ shift : Nat))
      (32 ≤ shift ∨ 1 ≤ shift ∧ 2 ^ 32 ≤ v + 2 ^ (shift - 1)) :=
    roundsTo_of_eq_ok_iff (Nat.two_pow_pos shift) (faultsOnlyWith_round2 v shift) fun w => by
      rw [← hfits]
      exact round2_eq_ok_iff
  exact_mod_cast h

theorem ulog2_eq_overflow_iff {v : Nat} : ulog2 v = .error .overflow ↔ v = 0 := by
  unfold ulog2
  split <;> simp [*]

theorem ulog2_eq_floor_logb {v : Nat} (hv : 1 ≤ v) : ulog2 v = .ok ⌊Real.logb 2 v⌋₊ := by
  have hfloor := Real.natFloor_logb_natCast 2 v
  rw [Nat.cast_ofNat] at hfloor
  rw [ulog2, if_neg (by omega), Nat.log2_eq_log_two, hfloor]

end PixelKernels
