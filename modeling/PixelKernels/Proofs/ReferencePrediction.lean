/-
  PixelKernels.Proofs.ReferencePrediction
  ───────────────────────────────────────
  **THE REFERENCE PREDICTOR PREDICTS THE CELLS OF THE CLOSED FORM.**

  The reference numbers the border in two ways of its own: as a line with the
  corner at -1, and as a ring with the corner at `n`.  Both are the one line of
  the closed form, shifted (`lineSample_eq`, `ringSample_eq`); what is left is
  that its checked arithmetic stays in 32 bits, which the range of the samples
  gives, and that both neighbours reach along the whole side
  (`IntraEdge.Reaches`), since both are summed before the kernel is looked at.
-/
import PixelKernels.Conformance.Reference
import PixelKernels.Proofs.BlockCost
import PixelKernels.Proofs.PortablePrediction

namespace PixelKernels

open Finset
open Intra (average2 average3 value predicted IsSide maxima_le maxima_lt sum_samples_le line_le)

variable {s : Storage}

/-! ## §1. Borders that the reference can be asked about. -/

/-- The border has the samples that the reference looks at, and all its samples are in range. -/
structure IntraEdge.Complete (edge : IntraEdge s) (kernel : IntraKernel) (n max : Nat) : Prop where
  above_size : Nat.max n (kernel.aboveLength n) ≤ edge.above.size
  left_size : n ≤ edge.left.size
  above_le : ∀ v ∈ edge.above, v.toNat ≤ max
  left_le : ∀ v ∈ edge.left, v.toNat ≤ max
  corner_le : edge.topLeft.toNat ≤ max

/-- Both neighbours have a sample for every column and every row of a block of side `n`. -/
structure IntraEdge.Reaches (edge : IntraEdge s) (n : Nat) : Prop where
  above_size : n ≤ edge.above.size
  left_size : n ≤ edge.left.size

namespace IntraEdge

variable {edge : IntraEdge s} {kernel : IntraKernel} {n max : Nat}

theorem Complete.aboveAt_le (h : edge.Complete kernel n max) (i : Nat) : edge.aboveAt i ≤ max :=
  have hzero : (0 : Sample s).toNat ≤ max := Nat.zero_le max
  forall_getD h.above_le hzero i

theorem Complete.leftAt_le (h : edge.Complete kernel n max) (i : Nat) : edge.leftAt i ≤ max :=
  have hzero : (0 : Sample s).toNat ≤ max := Nat.zero_le max
  forall_getD h.left_le hzero i

/-- The neighbours of a complete border are long enough for every kernel. -/
theorem Complete.reaches (h : edge.Complete kernel n max) : edge.Reaches n :=
  ⟨(Nat.le_max_left _ _).trans h.above_size, h.left_size⟩

/-- No kernel reads more than a complete border has. -/
theorem Complete.supplies (h : edge.Complete kernel n max) : edge.Supplies kernel n max where
  above_size := (Nat.le_max_right _ _).trans h.above_size
  left_size := by
    refine Nat.le_trans ?_ h.left_size
    cases kernel <;> simp [IntraKernel.leftLength]
  above_le := fun i _ => h.aboveAt_le i
  left_le := fun i _ => h.leftAt_le i
  corner_le := fun _ => h.corner_le

end IntraEdge

namespace Reference

variable {edge : IntraEdge s} {kernel : IntraKernel} {n max : Nat}

/-! ## §2. The border by its two other numberings. -/

theorem borderSample_of_lt {samples : Array (Sample s)} {i : Nat} (h : i < samples.size) :
    borderSample samples i = .ok (samples.getD i 0).toNat := by
  rw [borderSample, elementAt_eq_getD h 0]
  rfl

/-- The reference's line has the corner at -1. -/
theorem lineSample_eq {i : Int} (hlow : -edge.left.size ≤ i + 1) (hhigh : i + 1 ≤ edge.above.size) :
    lineSample edge i = .ok (edge.line (i + 1)) := by
  unfold lineSample IntraEdge.line
  -- right of the corner, at it, or below it
  by_cases hright : 0 ≤ i
  · rw [if_pos hright, if_pos (by omega), borderSample_of_lt (by omega), Int.add_sub_cancel]
    rfl
  · rw [if_neg hright]
    by_cases hcorner : i = -1
    · rw [if_pos hcorner, if_neg (by omega), if_pos (by omega)]
      rfl
    · rw [if_neg hcorner, if_neg (by omega), if_neg (by omega), borderSample_of_lt (by omega)]
      have hindex : -i - 2 = -(i + 1) - 1 := by omega
      rw [hindex]
      rfl

/-- The reference's ring has the corner at `n`. -/
theorem ringSample_eq {i : Int} (hlow : n - edge.left.size ≤ i) (hhigh : i ≤ n + edge.above.size) :
    ringSample n edge i = .ok (edge.line (i - n)) := by
  unfold ringSample IntraEdge.line
  -- before the corner, at it, or behind it
  by_cases hleft : i < n
  · rw [if_pos hleft, if_neg (by omega), if_neg (by omega), borderSample_of_lt (by omega)]
    have hindex : n - 1 - i = -(i - n) - 1 := by omega
    rw [hindex]
    rfl
  · rw [if_neg hleft]
    by_cases hcorner : i = n
    · rw [if_pos hcorner, if_neg (by omega), if_pos (by omega)]
      rfl
    · rw [if_neg hcorner, if_pos (by omega), borderSample_of_lt (by omega)]
      rfl

/-! ## §3. Its arithmetic. -/

theorem mean2_of_le {x y : Nat} (hx : x ≤ 4095) (hy : y ≤ 4095) :
    mean2 (.ok x) (.ok y) = .ok (average2 x y) := by
  rw [mean2, Outcome.ok_bind, Outcome.ok_bind, asUInt32_of_lt (by omega), Outcome.ok_bind,
    asUInt32_of_lt (by omega)]
  rfl

theorem mean3_of_le {x y z : Nat} (hx : x ≤ 4095) (hy : y ≤ 4095) (hz : z ≤ 4095) :
    mean3 (.ok x) (.ok y) (.ok z) = .ok (average3 x y z) := by
  rw [mean3, Outcome.ok_bind, Outcome.ok_bind, Outcome.ok_bind, asUInt32_of_lt (by omega),
    Outcome.ok_bind, asUInt32_of_lt (by omega), Outcome.ok_bind, asUInt32_of_lt (by omega),
    Outcome.ok_bind, asUInt32_of_lt (by omega)]
  rfl

theorem trailingZeros_two_pow (k : Nat) : trailingZeros (2 ^ k) = k := by
  induction k with
  | zero =>
    rw [trailingZeros, dif_neg (by decide), if_pos (by decide)]
  | succ k ih =>
    have hpos := Nat.two_pow_pos k
    rw [Nat.pow_succ, trailingZeros, dif_neg (by omega), if_neg (by omega),
      Nat.mul_div_cancel _ (by decide), ih]

theorem shiftDown_of_eq_two_pow {total m k : Nat} (hm : m = 2 ^ k) (hk : k < 32) :
    shiftDown total m = .ok (total / m) := by
  subst hm
  unfold shiftDown
  simp only [trailingZeros_two_pow]
  rw [if_pos hk, Nat.shiftRight_eq_div_pow]
  rfl

/-- The first `n` samples of a neighbour are summed before they are counted.  Whatever is in their cells,
thirty-two of them sum to far less than 32 bits hold. -/
theorem sumUInt32_neighbour {samples : Array (Sample s)} (hn : n ≤ 32) :
    sumUInt32 ((samples.toList.take n).map BitVec.toNat)
      = .ok ((samples.toList.take n).map BitVec.toNat).sum := by
  have hcell : ∀ v ∈ (samples.toList.take n).map BitVec.toNat, v ≤ 65535 := by
    intro v hv
    obtain ⟨sample, _, rfl⟩ := List.mem_map.mp hv
    have hbits : 2 ^ s.bits ≤ 65536 := by cases s <;> decide
    have hlt := sample.isLt
    omega
  have hsum := List.sum_le_card_nsmul _ _ hcell
  rw [List.length_map, List.length_take, smul_eq_mul] at hsum
  exact sumUInt32_of_lt (by omega)

theorem neighbourSum_eq {samples : Array (Sample s)} (hn : n ≤ 32) (hsize : n ≤ samples.size) :
    neighbourSum n samples = .ok (∑ i ∈ range n, (samples.getD i 0).toNat) := by
  have htake : samples.toList.take n = (List.range n).map fun i => samples.getD i 0 := by
    have hslice := slice_eq_map_range (show 0 + n ≤ samples.size by omega) 0
    rw [slice_of_le (by omega), List.drop_zero] at hslice
    simpa only [Nat.zero_add] using Except.ok.inj hslice
  rw [neighbourSum, sumUInt32_neighbour hn, Outcome.ok_bind, decide_eq_true hsize,
    Outcome.require_true, Outcome.ok_bind, htake, List.map_map]
  rfl

/-- A neighbour that ends before the side does is read past its end. -/
theorem neighbourSum_of_lt {samples : Array (Sample s)} (hn : n ≤ 32) (hsize : samples.size < n) :
    neighbourSum n samples = .error .index := by
  rw [neighbourSum, sumUInt32_neighbour hn, Outcome.ok_bind, decide_eq_false (by omega)]
  rfl

/-! ## §4. Its cells. -/

theorem length_cells (width height : Nat) : (cells width height).length = height * width := by
  simp [cells]

/-- **Every cell of the reference is the cell of the closed form**, if the neighbours reach as far as the
reference looks and what the kernel reads of them is in range. -/
theorem cell_eq_value (hside : IsSide n) (hmax : max ∈ s.maxima) (hreach : edge.Reaches n)
    (h : edge.Supplies kernel n max) {r c : Nat} (hr : r < n) (hc : c < n) :
    Reference.cell kernel n edge max (∑ i ∈ range n, edge.aboveAt i) (∑ i ∈ range n, edge.leftAt i) r c
      = .ok (value kernel n edge max r c) := by
  have hsmall := maxima_le hmax
  have hn := hside.le
  have hbound : n * max ≤ 32 * 4095 := Nat.mul_le_mul hn hsmall
  have habove := hreach.above_size
  have hleft := hreach.left_size
  cases kernel with
  -- the means divide by shifting, which needs the side as a power of two
  | dc =>
    have hsumAbove : ∑ i ∈ range n, edge.aboveAt i ≤ n * max := sum_samples_le h.above_le
    have hsumLeft : ∑ i ∈ range n, edge.leftAt i ≤ n * max := sum_samples_le h.left_le
    obtain ⟨k, hk, hk5, hpow⟩ := hside
    have hdouble : 2 * n = 2 ^ (k + 1) := by rw [hpow, Nat.pow_succ, Nat.mul_comm]
    simp only [Reference.cell]
    rw [asUInt32_of_lt (by omega), Outcome.ok_bind, asUInt32_of_lt (by omega), Outcome.ok_bind]
    exact shiftDown_of_eq_two_pow hdouble (by omega)
  | dcTop =>
    have hsumAbove : ∑ i ∈ range n, edge.aboveAt i ≤ n * max := sum_samples_le h.above_le
    obtain ⟨k, hk, hk5, hpow⟩ := hside
    simp only [Reference.cell]
    rw [asUInt32_of_lt (by omega), Outcome.ok_bind]
    exact shiftDown_of_eq_two_pow hpow (by omega)
  | dcLeft =>
    have hsumLeft : ∑ i ∈ range n, edge.leftAt i ≤ n * max := sum_samples_le h.left_le
    obtain ⟨k, hk, hk5, hpow⟩ := hside
    simp only [Reference.cell]
    rw [asUInt32_of_lt (by omega), Outcome.ok_bind]
    exact shiftDown_of_eq_two_pow hpow (by omega)
  | dc128 =>
    simp only [Reference.cell]
    rw [asUInt32_of_lt (by omega)]
    rfl
  | v => exact borderSample_of_lt (by omega)
  | h => exact borderSample_of_lt (by omega)
  | tm =>
    simp only [Reference.cell]
    rw [borderSample_of_lt (by omega), Outcome.ok_bind, borderSample_of_lt (by omega), Outcome.ok_bind,
      Int.add_sub_assoc]
    rfl
  | d45 =>
    have hfull : 2 * n ≤ edge.above.size := h.above_size
    have hread : ∀ i < 2 * n, edge.aboveAt i ≤ 4095 := fun i hi => (h.above_le i hi).trans hsmall
    simp only [Reference.cell, value]
    by_cases hin : r + c + 2 < 2 * n
    · rw [if_pos hin, if_pos hin, borderSample_of_lt (by omega), borderSample_of_lt (by omega),
        borderSample_of_lt (by omega)]
      exact mean3_of_le (hread _ (by omega)) (hread _ (by omega)) (hread _ (by omega))
    · rw [if_neg hin, if_neg hin]
      exact borderSample_of_lt (by omega)
  | d117 =>
    have hread : ∀ i : Int, -(n : Int) ≤ i → i ≤ n → edge.line i ≤ 4095 :=
      fun i hlow hhigh => (line_le h rfl hlow hhigh).trans hsmall
    -- a ray meets the row above, at whole or half steps, or the column to the left
    simp only [Reference.cell, value]
    by_cases hup : r / 2 ≤ c
    · rw [if_pos hup, if_pos hup]
      by_cases heven : r % 2 = 0
      · rw [if_pos heven, if_pos heven, lineSample_eq (by omega) (by omega),
          lineSample_eq (by omega) (by omega),
          mean2_of_le (hread _ (by omega) (by omega)) (hread _ (by omega) (by omega))]
        congr 3
        omega
      · rw [if_neg heven, if_neg heven, lineSample_eq (by omega) (by omega),
          lineSample_eq (by omega) (by omega), lineSample_eq (by omega) (by omega),
          mean3_of_le (hread _ (by omega) (by omega)) (hread _ (by omega) (by omega))
            (hread _ (by omega) (by omega))]
        congr 3
        all_goals omega
    · rw [if_neg hup, if_neg hup, lineSample_eq (by omega) (by omega),
          lineSample_eq (by omega) (by omega), lineSample_eq (by omega) (by omega),
          mean3_of_le (hread _ (by omega) (by omega)) (hread _ (by omega) (by omega))
            (hread _ (by omega) (by omega))]
      congr 3
      all_goals omega
  | d135 =>
    have hread : ∀ i : Int, -(n : Int) ≤ i → i ≤ n → edge.line i ≤ 4095 :=
      fun i hlow hhigh => (line_le h rfl hlow hhigh).trans hsmall
    -- every ray meets the ring at a whole step
    simp only [Reference.cell, value]
    rw [ringSample_eq (by omega) (by omega), ringSample_eq (by omega) (by omega),
      ringSample_eq (by omega) (by omega),
      mean3_of_le (hread _ (by omega) (by omega)) (hread _ (by omega) (by omega))
        (hread _ (by omega) (by omega))]
    congr 3
    all_goals omega

/-- **The reference predicts the closed form, in raster order**, from every border that supplies the
kernel and whose neighbours reach along the whole side. -/
theorem predict_of_reaches (hside : IsSide n) (hmax : max ∈ s.maxima) (hreach : edge.Reaches n)
    (h : edge.Supplies kernel n max) :
    Reference.predict kernel n edge max
      = .ok ((cells n n).map fun c => value kernel n edge max c.2 c.1) := by
  have hsumAbove : neighbourSum n edge.above = .ok (∑ i ∈ range n, edge.aboveAt i) :=
    neighbourSum_eq hside.le hreach.above_size
  have hsumLeft : neighbourSum n edge.left = .ok (∑ i ∈ range n, edge.leftAt i) :=
    neighbourSum_eq hside.le hreach.left_size
  rw [Reference.predict, hsumAbove, Outcome.ok_bind, hsumLeft, Outcome.ok_bind]
  refine Outcome.mapM_of_forall_ok ?_
  rintro ⟨c, r⟩ hin
  obtain ⟨hc, hr⟩ := Sad.mem_cells.mp hin
  exact cell_eq_value hside hmax hreach h hr hc

theorem predict_eq_values (hside : IsSide n) (hmax : max ∈ s.maxima)
    (h : edge.Complete kernel n max) :
    Reference.predict kernel n edge max
      = .ok ((cells n n).map fun c => value kernel n edge max c.2 c.1) :=
  predict_of_reaches hside hmax h.reaches h.supplies

/-- Storing a cell loses nothing. -/
theorem toNat_cell (hmax : max ∈ s.maxima) (h : edge.Supplies kernel n max) {r c : Nat} (hr : r < n)
    (hc : c < n) : (Intra.cell kernel n edge max r c).toNat = value kernel n edge max r c := by
  have hle := Intra.value_le h hr hc
  have hlt := maxima_lt hmax
  rw [Intra.cell, BitVec.toNat_ofNat, Nat.mod_eq_of_lt (by omega)]

/-- The samples of the predicted block, row after row, are the cells in raster order. -/
theorem flatten_predicted (hmax : max ∈ s.maxima)
    (h : edge.Supplies kernel n max) :
    (predicted kernel n edge max).flatten.map BitVec.toNat
      = (cells n n).map fun c => value kernel n edge max c.2 c.1 := by
  rw [predicted, Intra.tabulate, List.map_flatten, List.map_map, cells, List.map_flatMap,
    List.flatMap_def]
  apply congrArg List.flatten
  apply List.map_congr_left
  intro r hr
  simp only [Function.comp_def, List.map_map]
  exact List.map_congr_left fun c hc =>
    toNat_cell hmax h (List.mem_range.mp hr) (List.mem_range.mp hc)

end Reference

end PixelKernels
