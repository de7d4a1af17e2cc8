/-
  PixelKernels.Proofs.PredictedCells
  ──────────────────────────────────
  **WHAT A KERNEL PREDICTS, CELL BY CELL, AS PLAIN NUMBERS.**

  `Intra.value` gives the cell in row `r` and column `c` of a predicted block
  as a function of the border, without a fault and without a loop.  The border
  is read as one line, with the corner at zero, the samples above to its right
  and the samples to the left below it:

      … left 1, left 0, corner, above 0, above 1, …
          -2      -1      0        1        2

  The later modules prove three programs equal to it.  Here it is shown that a
  border which supplies what the kernel reads gives cells in range
  (`value_le`), so that storing a cell never loses anything.
-/
import Mathlib
import PixelKernels.Intra.Edge
import PixelKernels.Painting

namespace PixelKernels

open Finset

variable {s : Storage}

/-! ## §1. Borders as functions. -/

namespace IntraEdge

/-- The sample above column `i`, zero past the last one. -/
def aboveAt (edge : IntraEdge s) (i : Nat) : Nat := (edge.above.getD i 0).toNat

/-- The sample left of row `i`, zero past the last one. -/
def leftAt (edge : IntraEdge s) (i : Nat) : Nat := (edge.left.getD i 0).toNat

/-- The border as one line through the corner. -/
def line (edge : IntraEdge s) (i : Int) : Nat :=
  if 0 < i then edge.aboveAt (i - 1).toNat
  else if i = 0 then edge.topLeft.toNat
  else edge.leftAt (-i - 1).toNat

theorem line_succ (edge : IntraEdge s) (i : Nat) : edge.line (i + 1) = edge.aboveAt i := by
  unfold line
  rw [if_pos (by omega)]
  congr 1
  omega

@[simp] theorem line_zero (edge : IntraEdge s) : edge.line 0 = edge.topLeft.toNat := rfl

theorem line_neg_succ (edge : IntraEdge s) (i : Nat) : edge.line (-(i + 1)) = edge.leftAt i := by
  unfold line
  rw [if_neg (by omega), if_neg (by omega)]
  congr 1
  omega

/-- The border holds what a kernel of side `n` reads, and none of that is above `max`. -/
structure Supplies (edge : IntraEdge s) (kernel : IntraKernel) (n max : Nat) : Prop where
  above_size : kernel.aboveLength n ≤ edge.above.size
  left_size : kernel.leftLength n ≤ edge.left.size
  above_le : ∀ i < kernel.aboveLength n, edge.aboveAt i ≤ max
  left_le : ∀ i < kernel.leftLength n, edge.leftAt i ≤ max
  corner_le : kernel.readsTopLeft = true → edge.topLeft.toNat ≤ max

end IntraEdge

/-! ## §2. Predicted cells. -/

namespace Intra

/-- Two-tap average. -/
def average2 (x y : Nat) : Nat := (x + y + 1) / 2

/-- Three-tap average with a double centre. -/
def average3 (x y z : Nat) : Nat := (x + 2 * y + z + 2) / 4

/-- The cell in row `r` and column `c` of the block that a kernel predicts. -/
def value (kernel : IntraKernel) (n : Nat) (edge : IntraEdge s) (max r c : Nat) : Nat :=
  match kernel with
  | .dc => (∑ i ∈ range n, edge.aboveAt i + ∑ i ∈ range n, edge.leftAt i + n) / (2 * n)
  | .dcTop => (∑ i ∈ range n, edge.aboveAt i + n / 2) / n
  | .dcLeft => (∑ i ∈ range n, edge.leftAt i + n / 2) / n
  | .dc128 => (max + 1) / 2
  | .v => edge.aboveAt c
  | .h => edge.leftAt r
  | .tm => min (edge.aboveAt c + (edge.leftAt r - edge.topLeft.toNat : Int)).toNat max
  | .d45 =>
      if r + c + 2 < 2 * n then
        average3 (edge.aboveAt (r + c)) (edge.aboveAt (r + c + 1)) (edge.aboveAt (r + c + 2))
      else edge.aboveAt (2 * n - 1)
  | .d117 =>
      if r / 2 ≤ c then
        let x : Int := c - r / 2
        if r % 2 = 0 then average2 (edge.line x) (edge.line (x + 1))
        else average3 (edge.line (x - 1)) (edge.line x) (edge.line (x + 1))
      else
        let y : Int := r - 2 * c
        average3 (edge.line (2 - y)) (edge.line (1 - y)) (edge.line (-y))
  | .d135 =>
      let d : Int := c - r
      average3 (edge.line (d - 1)) (edge.line d) (edge.line (d + 1))

/-- A cell, stored. -/
def cell (kernel : IntraKernel) (n : Nat) (edge : IntraEdge s) (max r c : Nat) : Sample s :=
  BitVec.ofNat s.bits (value kernel n edge max r c)

/-- The block of side `n` with these cells. -/
def tabulate (n : Nat) (cells : Nat → Nat → Sample s) : Block s :=
  (List.range n).map fun r => (List.range n).map (cells r)

/-- The block that a kernel predicts. -/
def predicted (kernel : IntraKernel) (n : Nat) (edge : IntraEdge s) (max : Nat) : Block s :=
  tabulate n (cell kernel n edge max)

section Shape

variable {kernel : IntraKernel} {n max : Nat} {edge : IntraEdge s}

theorem length_predicted : (predicted kernel n edge max).length = n := by
  simp [predicted, tabulate]

theorem length_of_mem_predicted {row : List (Sample s)} (h : row ∈ predicted kernel n edge max) :
    row.length = n := by
  obtain ⟨r, _, rfl⟩ := List.mem_map.mp h
  simp

theorem getElem_predicted {r c : Nat} (hr : r < (predicted kernel n edge max).length) (hc : c < n) :
    (predicted kernel n edge max)[r].getD c 0 = cell kernel n edge max r c := by
  simp [predicted, tabulate, hc]

end Shape

/-! ## §3. Predicted cells are in range. -/

theorem average2_le {x y max : Nat} (hx : x ≤ max) (hy : y ≤ max) : average2 x y ≤ max := by
  unfold average2
  omega

theorem average3_le {x y z max : Nat} (hx : x ≤ max) (hy : y ≤ max) (hz : z ≤ max) :
    average3 x y z ≤ max := by
  unfold average3
  omega

/-- A sum of `n` samples in range is at most `n` times the maximum. -/
theorem sum_samples_le {n max : Nat} {f : Nat → Nat} (h : ∀ i < n, f i ≤ max) :
    ∑ i ∈ range n, f i ≤ n * max := by
  have hsum := sum_le_card_nsmul (range n) f max fun i hi => h i (mem_range.mp hi)
  rwa [card_range, Nat.nsmul_eq_mul] at hsum

/-- A rounded mean of `n` samples in range is in range. -/
theorem mean_le {n total max : Nat} (hn : 0 < n) (h : total ≤ n * max) :
    (total + n / 2) / n ≤ max := by
  have hlt : total + n / 2 < n * (max + 1) := by
    rw [Nat.mul_succ]; omega
  exact Nat.le_of_lt_succ (Nat.div_lt_of_lt_mul hlt)

section Range

variable {kernel : IntraKernel} {n max : Nat} {edge : IntraEdge s}

/-- On the stretch that the slanted kernels read, the line is in range. -/
theorem line_le (h : edge.Supplies kernel n max) (hcorner : kernel.readsTopLeft = true)
    {i : Int} (hlow : -(kernel.leftLength n : Int) ≤ i) (hhigh : i ≤ kernel.aboveLength n) :
    edge.line i ≤ max := by
  unfold IntraEdge.line
  split
  · exact h.above_le _ (by omega)
  · split
    · exact h.corner_le hcorner
    · exact h.left_le _ (by omega)

/-- **A kernel predicts samples in range from samples in range.** -/
theorem value_le (h : edge.Supplies kernel n max) {r c : Nat} (hr : r < n) (hc : c < n) :
    value kernel n edge max r c ≤ max := by
  have hn : 0 < n := by omega
  cases kernel with
  -- means and averages stay below their largest sample, tm is clipped, the rest is copied
  | dc =>
    have habove := sum_samples_le h.above_le
    have hleft := sum_samples_le h.left_le
    simp only [IntraKernel.aboveLength, IntraKernel.leftLength] at habove hleft
    have htotal : ∑ i ∈ range n, edge.aboveAt i + ∑ i ∈ range n, edge.leftAt i ≤ 2 * n * max := by
      rw [Nat.mul_assoc, Nat.two_mul]; omega
    have hmean := mean_le (by omega) htotal
    rwa [Nat.mul_div_cancel_left n (by decide)] at hmean
  | dcTop => exact mean_le hn (sum_samples_le h.above_le)
  | dcLeft => exact mean_le hn (sum_samples_le h.left_le)
  | dc128 => show (max + 1) / 2 ≤ max; omega
  | v => exact h.above_le c hc
  | h => exact h.left_le r hr
  | tm => exact Nat.min_le_right _ _
  | d45 =>
    simp only [value]
    have hread : ∀ i < 2 * n, edge.aboveAt i ≤ max := h.above_le
    split
    · exact average3_le (hread _ (by omega)) (hread _ (by omega)) (hread _ (by omega))
    · exact hread _ (by omega)
  | d117 =>
    have hread : ∀ i : Int, -(n : Int) ≤ i → i ≤ n → edge.line i ≤ max :=
      fun i hlow hhigh => line_le h rfl hlow hhigh
    simp only [value]
    split
    · split
      · exact average2_le (hread _ (by omega) (by omega)) (hread _ (by omega) (by omega))
      · exact average3_le (hread _ (by omega) (by omega)) (hread _ (by omega) (by omega))
          (hread _ (by omega) (by omega))
    · exact average3_le (hread _ (by omega) (by omega)) (hread _ (by omega) (by omega))
        (hread _ (by omega) (by omega))
  | d135 =>
    have hread : ∀ i : Int, -(n : Int) ≤ i → i ≤ n → edge.line i ≤ max :=
      fun i hlow hhigh => line_le h rfl hlow hhigh
    exact average3_le (hread _ (by omega) (by omega)) (hread _ (by omega) (by omega))
      (hread _ (by omega) (by omega))

/-- **No cell of a predicted block is above the maximum.** -/
theorem predicted_le (h : edge.Supplies kernel n max) :
    ∀ row ∈ predicted kernel n edge max, ∀ v ∈ row, v.toNat ≤ max := by
  intro row hrow v hv
  obtain ⟨r, hr, rfl⟩ := List.mem_map.mp hrow
  obtain ⟨c, hc, rfl⟩ := List.mem_map.mp hv
  rw [cell, BitVec.toNat_ofNat]
  exact (Nat.mod_le _ _).trans (value_le h (List.mem_range.mp hr) (List.mem_range.mp hc))

end Range

end Intra

end PixelKernels
