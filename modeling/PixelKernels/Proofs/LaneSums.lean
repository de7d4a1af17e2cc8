/-
  PixelKernels.Proofs.LaneSums
  ────────────────────────────
  **WHAT A REGISTER HOLDS, ALL LANES TOGETHER.**

  An accumulator in a register is known by the sum of its lanes as numbers.
  Where two such sums together stay below the capacity of one lane, no lane
  of the sum of the registers wraps, and the sums add up (`laneSum_add`).  So
  one bound on the whole replaces one bound for every lane, and it is the
  bound on the cost itself.  The same bound carries the horizontal sums,
  whose intermediate lanes are parts of the whole.

  `addStrict` and the strict horizontal sums fault where a lane wraps.  That
  they agree with the wrapping ones is how "nothing wraps" is said.
-/
import Mathlib
import PixelKernels.Proofs.Sequences
import PixelKernels.Sad.Portable
import PixelKernels.Sad.Wide

namespace PixelKernels.Register

variable {k n : Nat}

open Sad.Portable (distance)

/-! ## §1. The sum of the lanes. -/

/-- The lanes of a register, added up as numbers. -/
def laneSum (a : Register k n) : Nat := ∑ i : Fin n, a[i.val].toNat

theorem toNat_le_laneSum (a : Register k n) {i : Nat} (hi : i < n) : a[i].toNat ≤ laneSum a :=
  Finset.single_le_sum (f := fun j : Fin n => a[j.val].toNat) (fun _ _ => Nat.zero_le _)
    (Finset.mem_univ ⟨i, hi⟩)

@[simp] theorem laneSum_zero : laneSum (zero k n) = 0 := by
  simp [laneSum, zero]

theorem getElem_add (a b : Register k n) {i : Nat} (hi : i < n) : (add a b)[i] = a[i] + b[i] := by
  simp [add]

/-- Lanes that stay below their capacity together do not wrap. -/
theorem toNat_getElem_add {a b : Register k n} {i : Nat} (hi : i < n)
    (h : a[i].toNat + b[i].toNat < 2 ^ k) : (add a b)[i].toNat = a[i].toNat + b[i].toNat := by
  rw [getElem_add, BitVec.toNat_add, Nat.mod_eq_of_lt h]

/-- **Sums of lanes add up as long as they stay below the capacity of a lane.** -/
theorem laneSum_add {a b : Register k n} (h : laneSum a + laneSum b < 2 ^ k) :
    laneSum (add a b) = laneSum a + laneSum b := by
  unfold laneSum
  rw [← Finset.sum_add_distrib]
  refine Finset.sum_congr rfl fun i _ => toNat_getElem_add i.isLt ?_
  have ha := toNat_le_laneSum a i.isLt
  have hb := toNat_le_laneSum b i.isLt
  omega

@[simp] theorem laneSum_zeroExtend (a : Register k n) : laneSum (zeroExtend a) = laneSum a := by
  unfold laneSum
  rw [Fin.sum_univ_add]
  simp [zeroExtend, zero]

/-! ## §2. Sums that refuse to wrap. -/

/-- The sum of two registers, or a fault where one of its lanes wraps. -/
def addStrict (a b : Register k n) : Outcome (Register k n) :=
  if ∀ i : Fin n, a[i.val].toNat + b[i.val].toNat < 2 ^ k then .ok (add a b)
  else .error .overflow

theorem addStrict_of_lt {a b : Register k n} (h : ∀ i : Fin n, a[i.val].toNat + b[i.val].toNat < 2 ^ k) :
    addStrict a b = .ok (add a b) := if_pos h

theorem addStrict_of_laneSum_lt {a b : Register k n} (h : laneSum a + laneSum b < 2 ^ k) :
    addStrict a b = .ok (add a b) := by
  apply addStrict_of_lt
  intro i
  -- two lanes are at most what all lanes are together
  have ha := toNat_le_laneSum a i.isLt
  have hb := toNat_le_laneSum b i.isLt
  omega

/-- The horizontal sum of four 64-bit lanes, with a fault where a lane or the cut to 32 bits loses
something. -/
def sum64Strict (a : Register 64 4) : Outcome Nat := do
  let s ← addStrict (lowHalf (n := 2) a) (highHalf a)
  let s ← addStrict s (shuffle upperTwice s)
  asUInt32 (lowest s).toNat

/-- The horizontal sum of eight 32-bit lanes, with a fault where a lane wraps. -/
def sum32Strict (a : Register 32 8) : Outcome Nat := do
  let s ← addStrict (lowHalf (n := 4) a) (highHalf a)
  let s ← addStrict s (shuffle swapHalves s)
  let s ← addStrict s (shuffle swapNeighbours s)
  pure (lowest s).toNat

/-! ## §3. Horizontal sums. -/

/-- The horizontal sum of 64-bit lanes is the sum of the lanes, cut to 32 bits. -/
theorem sum64_eq_ofNat (a : Register 64 4) : sum64 a = BitVec.ofNat 32 (laneSum a) := by
  apply BitVec.eq_of_toNat_eq
  simp [sum64, lowest, add, lowHalf, highHalf, shuffle, upperTwice, laneSum, Fin.sum_univ_four]
  omega

/-- The horizontal sum of 32-bit lanes is the sum of the lanes, wrapped at 32 bits. -/
theorem sum32_eq_ofNat (a : Register 32 8) : sum32 a = BitVec.ofNat 32 (laneSum a) := by
  apply BitVec.eq_of_toNat_eq
  simp [sum32, lowest, add, lowHalf, highHalf, shuffle, swapHalves, swapNeighbours, laneSum,
    Fin.sum_univ_eight]
  omega

theorem toNat_sum64 {a : Register 64 4} (h : laneSum a < 2 ^ 32) : (sum64 a).toNat = laneSum a := by
  rw [sum64_eq_ofNat, BitVec.toNat_ofNat, Nat.mod_eq_of_lt h]

theorem toNat_sum32 {a : Register 32 8} (h : laneSum a < 2 ^ 32) : (sum32 a).toNat = laneSum a := by
  rw [sum32_eq_ofNat, BitVec.toNat_ofNat, Nat.mod_eq_of_lt h]

/-- No lane wraps in the horizontal sum of 64-bit lanes, and cutting it loses nothing. -/
theorem sum64Strict_of_laneSum_lt {a : Register 64 4} (h : laneSum a < 2 ^ 32) :
    sum64Strict a = .ok (laneSum a) := by
  have hlanes : laneSum a = a[0].toNat + a[1].toNat + a[2].toNat + a[3].toNat :=
    Fin.sum_univ_four _
  rw [hlanes] at h ⊢
  unfold sum64Strict
  rw [addStrict_of_lt, Outcome.ok_bind, addStrict_of_lt, Outcome.ok_bind, asUInt32_of_lt]
  · simp [lowest, add, lowHalf, highHalf, shuffle, upperTwice]
    omega
  · simp [lowest, add, lowHalf, highHalf, shuffle, upperTwice]
    omega
  · intro i
    fin_cases i <;> simp [add, lowHalf, highHalf, shuffle, upperTwice] <;> omega
  · intro i
    fin_cases i <;> simp [lowHalf, highHalf] <;> omega

/-- No lane wraps in the horizontal sum of 32-bit lanes. -/
theorem sum32Strict_of_laneSum_lt {a : Register 32 8} (h : laneSum a < 2 ^ 32) :
    sum32Strict a = .ok (laneSum a) := by
  rw [← toNat_sum32 h]
  have hlanes : laneSum a = a[0].toNat + a[1].toNat + a[2].toNat + a[3].toNat + a[4].toNat
      + a[5].toNat + a[6].toNat + a[7].toNat := Fin.sum_univ_eight _
  rw [hlanes] at h
  unfold sum32Strict
  rw [addStrict_of_lt, Outcome.ok_bind, addStrict_of_lt, Outcome.ok_bind, addStrict_of_lt,
    Outcome.ok_bind]
  · rfl
  · -- neighbours: each lane now holds four of the eight
    intro i
    fin_cases i <;> simp [add, lowHalf, highHalf, shuffle, swapHalves, swapNeighbours] <;> omega
  · -- halves of halves: each lane now holds two of the eight
    intro i
    fin_cases i <;> simp [add, lowHalf, highHalf, shuffle, swapHalves] <;> omega
  · intro i
    fin_cases i <;> simp [lowHalf, highHalf] <;> omega

/-! ## §4. Distances, eight bytes to a lane. -/

/-- The register that holds the values of a function from `start` on. -/
def window (n : Nat) (f : Nat → BitVec k) (start : Nat) : Register k n :=
  Vector.ofFn fun i : Fin n => f (start + i.val)

@[simp] theorem getElem_window (f : Nat → BitVec k) (start : Nat) {i : Nat} (hi : i < n) :
    (window n f start)[i] = f (start + i) := by
  simp [window]

/-- Loading from a row that is long enough does not fault. -/
theorem load_map_range {f : Nat → BitVec k} {width start : Nat} (h : start + n ≤ width) :
    load n ((List.range width).map f) start = .ok (window n f start) := by
  have hlen : (((List.range width).map f).drop start |>.take n).length = n := by
    simp; omega
  unfold load
  rw [dif_pos hlen]
  apply congrArg Except.ok
  apply Vector.ext
  intro i hi
  simp [window]

theorem distance_byte_le (x y : BitVec 8) : distance x.toNat y.toNat ≤ 255 := by
  have hx := x.isLt
  have hy := y.isLt
  unfold distance
  omega

theorem toNat_getElem_sumDistances (f g : Nat → BitVec 8) (start : Nat) {i : Nat} (hi : i < n) :
    (sumDistances (window (8 * n) f start) (window (8 * n) g start))[i].toNat
      = ∑ j ∈ Finset.range 8,
          distance (f (start + (8 * i + j))).toNat (g (start + (8 * i + j))).toNat := by
  have hsum : ∑ j ∈ Finset.range 8,
      distance (f (start + (8 * i + j))).toNat (g (start + (8 * i + j))).toNat ≤ 8 * 255 :=
    Finset.sum_le_card_nsmul _ _ 255 fun j _ => distance_byte_le _ _
  have hfold : (sumDistances (window (8 * n) f start) (window (8 * n) g start))[i]
      = BitVec.ofNat 64 (∑ j ∈ Finset.range 8,
          distance (f (start + (8 * i + j))).toNat (g (start + (8 * i + j))).toNat) := by
    simp only [sumDistances, Vector.getElem_ofFn, getElem_window, Finset.sum_range_succ,
      Finset.sum_range_zero]
    rfl
  rw [hfold, BitVec.toNat_ofNat, Nat.mod_eq_of_lt (by omega)]

/-- **The distances of two rows of bytes are all in the lanes, each once.** -/
theorem laneSum_sumDistances (f g : Nat → BitVec 8) (start : Nat) :
    laneSum (sumDistances (window (8 * n) f start) (window (8 * n) g start))
      = ∑ j ∈ Finset.range (8 * n), distance (f (start + j)).toNat (g (start + j)).toNat := by
  rw [sum_range_mul, ← Fin.sum_univ_eq_sum_range]
  exact Finset.sum_congr rfl fun i _ => toNat_getElem_sumDistances f g start i.isLt

/-! ## §5. Distances, two words to a lane. -/

/-- One of the two saturating differences is the distance and the other is zero. -/
theorem toNat_getElem_wordDistances (a b : Register 16 16) {i : Nat} (hi : i < 16) :
    (Sad.Wide.wordDistances a b)[i].toNat = distance a[i].toNat b[i].toNat := by
  have hentry : (Sad.Wide.wordDistances a b)[i]
      = (if b[i].toNat ≤ a[i].toNat then a[i] - b[i] else 0#16)
        ||| (if a[i].toNat ≤ b[i].toNat then b[i] - a[i] else 0#16) := by
    simp [Sad.Wide.wordDistances, bitOr, subSaturating]
  rw [hentry]
  unfold distance
  -- the smaller lane saturates at zero when the larger is taken from it
  rcases Nat.lt_trichotomy a[i].toNat b[i].toNat with hlt | heq | hgt
  · rw [if_neg (by omega), if_pos (by omega), BitVec.zero_or, BitVec.toNat_sub_of_le hlt.le]
    omega
  · rw [if_pos (by omega), if_pos (by omega), BitVec.eq_of_toNat_eq heq, BitVec.sub_self]
    simp
  · rw [if_pos (by omega), if_neg (by omega), BitVec.or_zero, BitVec.toNat_sub_of_le hgt.le]
    omega

/-- Multiplying by one and adding in pairs is exact for lanes that are not negative. -/
theorem toNat_getElem_addPairs_one {a : Register 16 (2 * n)} {i : Nat} (hi : i < n)
    (hi₀ : 2 * i < 2 * n) (hi₁ : 2 * i + 1 < 2 * n)
    (h : ∀ j (hj : j < 2 * n), a[j].toNat < 2 ^ 15) :
    (addPairs a (splat (2 * n) 1))[i].toNat = a[2 * i].toNat + a[2 * i + 1].toNat := by
  have hone : (1 : BitVec 16).signExtend 32 = 1#32 := by decide
  have hlow := h (2 * i) hi₀
  have hhigh := h (2 * i + 1) hi₁
  have hpositive : ∀ x : BitVec 16, x.toNat < 2 ^ 15 → (x.signExtend 32).toNat = x.toNat := by
    intro x hx
    -- the sign bit is clear, so the sign extension adds zeros
    have hmsb : x.msb = false := by rw [BitVec.msb_eq_false_iff_two_mul_lt]; omega
    rw [BitVec.signExtend_eq_setWidth_of_msb_false hmsb, BitVec.toNat_setWidth]
    omega
  simp only [addPairs, splat, Vector.getElem_ofFn, Vector.getElem_replicate, hone, BitVec.mul_one,
    BitVec.toNat_add, hpositive _ hlow, hpositive _ hhigh]
  omega

/-- **The distances of two rows of words are all in the lanes, each once.** -/
theorem laneSum_addPairs_wordDistances {f g : Nat → BitVec 16} {start : Nat}
    (h : ∀ j < 16, distance (f (start + j)).toNat (g (start + j)).toNat < 2 ^ 15) :
    laneSum (addPairs (n := 8) (Sad.Wide.wordDistances (window 16 f start) (window 16 g start))
        (splat 16 1))
      = ∑ j ∈ Finset.range 16, distance (f (start + j)).toNat (g (start + j)).toNat := by
  have hlane : ∀ j (hj : j < 16),
      (Sad.Wide.wordDistances (window 16 f start) (window 16 g start))[j].toNat
        = distance (f (start + j)).toNat (g (start + j)).toNat := by
    intro j hj
    rw [toNat_getElem_wordDistances _ _ hj, getElem_window _ _ hj, getElem_window _ _ hj]
  refine Eq.trans ?_ (sum_range_mul 2 8 _).symm
  rw [← Fin.sum_univ_eq_sum_range]
  apply Finset.sum_congr rfl
  intro i _
  -- lane `i` holds the distances `2 * i` and `2 * i + 1`
  rw [toNat_getElem_addPairs_one (n := 8) i.isLt (by omega) (by omega)
      fun j hj => by rw [hlane j hj]; exact h j hj,
    hlane _ (by omega), hlane _ (by omega)]
  simp [Finset.sum_range_succ]

end PixelKernels.Register
