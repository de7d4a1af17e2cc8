/-
  PixelKernels.Proofs.PortablePrediction
  ──────────────────────────────────────
  **THE PORTABLE KERNELS PREDICT THE CELLS OF THE CLOSED FORM.**

  The flat and the straight kernels are read off their loops.  The slanted
  ones copy: past its first rows a d117 or d135 block is a cascade, whose rows
  repeat earlier rows one column to the right.  A matrix that is constant along
  the same diagonals is what a cascade builds from its first rows and its first
  column (`cascade_eq_rows`, `cascade2_eq_rows`), and the closed form
  is constant along them, since a step along the diagonal leaves the point
  where the cell's ray meets the border where it is.
-/
import PixelKernels.Intra.Portable
import PixelKernels.Proofs.PredictedCells
import PixelKernels.Proofs.Rectangles
import PixelKernels.Proofs.RoundingLaws
import PixelKernels.Proofs.Sequences

namespace PixelKernels

open Finset

variable {s : Storage}

/-! ## §1. Reading a border. -/

namespace IntraEdge

variable {edge : IntraEdge s} {k : Nat}

theorem aboveRow_of_le (h : k ≤ edge.above.size) :
    edge.aboveRow k = .ok ((List.range k).map fun i => edge.above.getD i 0) := by
  rw [aboveRow, slice_eq_map_range (by omega) 0]
  simp only [Nat.zero_add]

theorem leftColumn_of_le (h : k ≤ edge.left.size) :
    edge.leftColumn k = .ok ((List.range k).map fun i => edge.left.getD i 0) := by
  rw [leftColumn, slice_eq_map_range (by omega) 0]
  simp only [Nat.zero_add]

theorem ofNat_aboveAt (edge : IntraEdge s) (i : Nat) :
    BitVec.ofNat s.bits (edge.aboveAt i) = edge.above.getD i 0 := by
  rw [aboveAt, BitVec.ofNat_toNat, BitVec.setWidth_eq]

theorem ofNat_leftAt (edge : IntraEdge s) (i : Nat) :
    BitVec.ofNat s.bits (edge.leftAt i) = edge.left.getD i 0 := by
  rw [leftAt, BitVec.ofNat_toNat, BitVec.setWidth_eq]

theorem assertHolds_of_supplies {kernel : IntraKernel} {n max : Nat}
    (h : edge.Supplies kernel n max) : edge.assertHolds kernel n = .ok () := by
  rw [assertHolds, decide_eq_true h.above_size, Outcome.require_true, Outcome.ok_bind,
    decide_eq_true h.left_size, Outcome.require_true]

end IntraEdge

namespace Intra

/-! ## §2. Sides and means. -/

/-- A side of an intra block: 4, 8, 16 or 32. -/
def IsSide (n : Nat) : Prop := ∃ k, 2 ≤ k ∧ k ≤ 5 ∧ n = 2 ^ k

theorem isSide_of_supports {kernel : IntraKernel} {block : BlockSize}
    (h : (KernelKind.intra kernel).supports block = true) : IsSide block.width := by
  cases block <;> simp [KernelKind.supports] at h
  · exact ⟨2, by decide, by decide, rfl⟩
  · exact ⟨3, by decide, by decide, rfl⟩
  · exact ⟨4, by decide, by decide, rfl⟩
  · exact ⟨5, by decide, by decide, rfl⟩

theorem IsSide.pos {n : Nat} (h : IsSide n) : 0 < n := by
  obtain ⟨k, _, _, rfl⟩ := h
  exact Nat.two_pow_pos k

theorem IsSide.one_lt {n : Nat} (h : IsSide n) : 1 < n := by
  obtain ⟨k, hk, _, rfl⟩ := h
  exact Nat.one_lt_two_pow (by omega)

theorem IsSide.le {n : Nat} (h : IsSide n) : n ≤ 32 := by
  obtain ⟨k, _, hk, rfl⟩ := h
  exact Nat.pow_le_pow_right (by decide) hk

theorem ulog2_two_pow (k : Nat) : ulog2 (2 ^ k) = .ok k := by
  rw [ulog2, if_neg (Nat.two_pow_pos k).ne', Nat.log2_two_pow]

theorem maxima_lt {max : Nat} (hmax : max ∈ s.maxima) : max < 2 ^ s.bits := by
  rw [← Nat.one_shiftLeft]
  exact SampleRange.max_lt ⟨max, hmax⟩

theorem ofNat_of_le {v max : Nat} (hmax : max ∈ s.maxima) (h : v ≤ max) :
    Sample.ofNat s v = .ok (BitVec.ofNat s.bits v) :=
  Sample.ofNat_of_lt (Nat.lt_of_le_of_lt h (SampleRange.max_lt ⟨max, hmax⟩))

theorem maxima_le {max : Nat} (hmax : max ∈ s.maxima) : max ≤ 4095 := by
  cases s <;> simp [Storage.maxima] at hmax <;> omega

theorem average3_comm (x y z : Nat) : average3 x y z = average3 z y x := by
  unfold average3
  omega

theorem tabulate_const (n : Nat) (v : Sample s) :
    tabulate n (fun _ _ => v) = List.replicate n (List.replicate n v) := by
  simp [tabulate, List.map_const']

theorem tabulate_succ (n : Nat) (cells : Nat → Nat → Sample s) :
    tabulate (n + 1) cells = (List.range (n + 1)).map (cells 0)
      :: (List.range n).map fun r => (List.range (n + 1)).map (cells (r + 1)) :=
  map_range_succ n _

/-! ## §3. Means of the border.

Both families of kernels compute these in the same words and store them in different ones, so the
means are stated for whatever comes next. -/

namespace Portable

theorem sumSamples_map_range {n max : Nat} {f : Nat → Sample s} (hn : n ≤ 32) (hmax : max ∈ s.maxima)
    (h : ∀ i < n, (f i).toNat ≤ max) :
    sumSamples ((List.range n).map f) = .ok (∑ i ∈ range n, (f i).toNat) := by
  have hsum := sum_samples_le h
  have hle : n * max ≤ 32 * 4095 := Nat.mul_le_mul hn (maxima_le hmax)
  have hlt : (((List.range n).map f).map BitVec.toNat).sum < 2 ^ 32 := by
    rw [List.map_map, sum_map_range]
    exact Nat.lt_of_le_of_lt (hsum.trans hle) (by decide)
  rw [sumSamples, sumUInt32_of_lt hlt, List.map_map, sum_map_range]
  rfl

/-- Shifting by the logarithm of a power of two is the rounded mean. -/
theorem mean_bind {β : Type} {m k total : Nat} (hm : m = 2 ^ k) (hk : k < 32)
    (h : total + m < 2 ^ 32) (next : Nat → Outcome β) :
    (do next (← round2 total (← ulog2 m))) = next ((total + m / 2) / m) := by
  subst hm
  have hpow := Nat.two_pow_pos k
  have hround : round2 total k = .ok ((total + 2 ^ k / 2) / 2 ^ k) :=
    round2_eq_ok_iff.mpr ⟨.inr ⟨hk, by omega⟩, rfl⟩
  rw [ulog2_two_pow, Outcome.ok_bind, hround, Outcome.ok_bind]

variable {n max : Nat} {edge : IntraEdge s}

section Means

variable {β : Type} (hside : IsSide n) (hmax : max ∈ s.maxima)
include hside hmax

theorem dc_mean (h : edge.Supplies .dc n max) (next : Nat → Outcome β) :
    (do
      let above ← sumSamples (← edge.aboveRow n)
      let left ← sumSamples (← edge.leftColumn n)
      next (← round2 (← asUInt32 (above + left)) (← ulog2 (2 * n))))
      = next (value .dc n edge max 0 0) := by
  have hle : n * max ≤ 32 * 4095 := Nat.mul_le_mul hside.le (maxima_le hmax)
  have habove : ∑ i ∈ range n, edge.aboveAt i ≤ n * max := sum_samples_le h.above_le
  have hleft : ∑ i ∈ range n, edge.leftAt i ≤ n * max := sum_samples_le h.left_le
  have hn := hside.le
  obtain ⟨k, hk, hk5, hpow⟩ := hside
  rw [IntraEdge.aboveRow_of_le (k := n) h.above_size, Outcome.ok_bind,
    sumSamples_map_range hn hmax h.above_le, Outcome.ok_bind,
    IntraEdge.leftColumn_of_le (k := n) h.left_size, Outcome.ok_bind,
    sumSamples_map_range hn hmax h.left_le, Outcome.ok_bind]
  -- the two sums and the rounding constant together stay far below 2 ^ 32
  show (do next (← round2 (← asUInt32
    (∑ i ∈ range n, edge.aboveAt i + ∑ i ∈ range n, edge.leftAt i)) (← ulog2 (2 * n)))) = _
  rw [asUInt32_of_lt (by omega), Outcome.ok_bind,
    mean_bind (k := k + 1) (by rw [hpow, Nat.pow_succ, Nat.mul_comm]) (by omega) (by omega),
    Nat.mul_div_cancel_left n (by decide)]
  rfl

theorem dcTop_mean (h : edge.Supplies .dcTop n max) (next : Nat → Outcome β) :
    (do next (← round2 (← sumSamples (← edge.aboveRow n)) (← ulog2 n)))
      = next (value .dcTop n edge max 0 0) := by
  have hle : n * max ≤ 32 * 4095 := Nat.mul_le_mul hside.le (maxima_le hmax)
  have habove : ∑ i ∈ range n, edge.aboveAt i ≤ n * max := sum_samples_le h.above_le
  have hn := hside.le
  obtain ⟨k, hk, hk5, hpow⟩ := hside
  rw [IntraEdge.aboveRow_of_le (k := n) h.above_size, Outcome.ok_bind,
    sumSamples_map_range hn hmax h.above_le, Outcome.ok_bind]
  exact mean_bind hpow (by omega)
    (show ∑ i ∈ range n, edge.aboveAt i + n < 2 ^ 32 by omega) next

theorem dcLeft_mean (h : edge.Supplies .dcLeft n max) (next : Nat → Outcome β) :
    (do next (← round2 (← sumSamples (← edge.leftColumn n)) (← ulog2 n)))
      = next (value .dcLeft n edge max 0 0) := by
  have hle : n * max ≤ 32 * 4095 := Nat.mul_le_mul hside.le (maxima_le hmax)
  have hleft : ∑ i ∈ range n, edge.leftAt i ≤ n * max := sum_samples_le h.left_le
  have hn := hside.le
  obtain ⟨k, hk, hk5, hpow⟩ := hside
  rw [IntraEdge.leftColumn_of_le (k := n) h.left_size, Outcome.ok_bind,
    sumSamples_map_range hn hmax h.left_le, Outcome.ok_bind]
  exact mean_bind hpow (by omega)
    (show ∑ i ∈ range n, edge.leftAt i + n < 2 ^ 32 by omega) next

end Means

/-! ## §4. Flat and straight kernels. -/

theorem ofMax_of_mem (hmax : max ∈ s.maxima) : SampleRange.ofMax s max = .ok ⟨max, hmax⟩ :=
  dif_pos hmax

theorem flat_eq_tabulate (n : Nat) (v : Sample s) : flat n v = tabulate n fun _ _ => v :=
  (tabulate_const n v).symm

section Flat

variable (hside : IsSide n) (hmax : max ∈ s.maxima)
include hside hmax

theorem dc_eq_predicted (h : edge.Supplies .dc n max) :
    dc n edge = .ok (predicted .dc n edge max) := by
  have hrange := value_le h hside.pos hside.pos
  rw [dc, dc_mean hside hmax h, ofNat_of_le hmax hrange, Outcome.ok_bind, flat_eq_tabulate]
  rfl

theorem dcTop_eq_predicted (h : edge.Supplies .dcTop n max) :
    dcTop n edge = .ok (predicted .dcTop n edge max) := by
  have hrange := value_le h hside.pos hside.pos
  rw [dcTop, dcTop_mean hside hmax h, ofNat_of_le hmax hrange, Outcome.ok_bind, flat_eq_tabulate]
  rfl

theorem dcLeft_eq_predicted (h : edge.Supplies .dcLeft n max) :
    dcLeft n edge = .ok (predicted .dcLeft n edge max) := by
  have hrange := value_le h hside.pos hside.pos
  rw [dcLeft, dcLeft_mean hside hmax h, ofNat_of_le hmax hrange, Outcome.ok_bind, flat_eq_tabulate]
  rfl

end Flat

theorem dc128_eq_predicted (hmax : max ∈ s.maxima) :
    dc128 n max = .ok (predicted .dc128 n edge max) := by
  rw [dc128, ofMax_of_mem hmax, Outcome.ok_bind, flat_eq_tabulate]
  rfl

theorem v_eq_predicted (h : edge.Supplies .v n max) : v n edge = .ok (predicted .v n edge max) := by
  have hrow : ∀ r, (List.range n).map (cell .v n edge max r)
      = (List.range n).map fun i => edge.above.getD i 0 :=
    fun r => List.map_congr_left fun c _ => edge.ofNat_aboveAt c
  rw [v, IntraEdge.aboveRow_of_le (k := n) h.above_size, Outcome.ok_bind, predicted, tabulate,
    List.map_congr_left fun r _ => hrow r, List.map_const', List.length_range]
  rfl

theorem h_eq_predicted (hl : edge.Supplies .h n max) :
    h n edge = .ok (predicted .h n edge max) := by
  rw [h, IntraEdge.leftColumn_of_le (k := n) hl.left_size, Outcome.ok_bind, List.map_map]
  apply congrArg Except.ok
  apply List.map_congr_left
  intro r _
  show List.replicate n (edge.left.getD r 0)
    = (List.range n).map fun _ => BitVec.ofNat s.bits (edge.leftAt r)
  rw [edge.ofNat_leftAt, List.map_const', List.length_range]

theorem tm_eq_predicted (hmax : max ∈ s.maxima) (h : edge.Supplies .tm n max) :
    tm n edge max = .ok (predicted .tm n edge max) := by
  rw [tm, ofMax_of_mem hmax, Outcome.ok_bind, IntraEdge.aboveRow_of_le (k := n) h.above_size,
    Outcome.ok_bind, IntraEdge.leftColumn_of_le (k := n) h.left_size, Outcome.ok_bind, List.map_map]
  apply congrArg Except.ok
  apply List.map_congr_left
  intro r _
  exact List.map_map

/-! ## §5. Averages along a line. -/

section Taps

variable (hmax : max ∈ s.maxima)
include hmax

theorem tap2_of_le {x y : Nat} (hx : x ≤ max) (hy : y ≤ max) :
    (tap2 x y : Outcome (Sample s)) = .ok (BitVec.ofNat s.bits (average2 x y)) := by
  have hsmall := maxima_le hmax
  have havg : avg2 x y = .ok (average2 x y) := avg2_eq_ok_iff.mpr ⟨by omega, rfl⟩
  rw [tap2, havg, Outcome.ok_bind, ofNat_of_le hmax (average2_le hx hy)]

theorem tap3_of_le {x y z : Nat} (hx : x ≤ max) (hy : y ≤ max) (hz : z ≤ max) :
    (tap3 x y z : Outcome (Sample s)) = .ok (BitVec.ofNat s.bits (average3 x y z)) := by
  have hsmall := maxima_le hmax
  have havg : avg3 x y z = .ok (average3 x y z) := avg3_eq_ok_iff.mpr ⟨by omega, rfl⟩
  rw [tap3, havg, Outcome.ok_bind, ofNat_of_le hmax (average3_le hx hy hz)]

/-- The two-tap averages of a line, position by position. -/
theorem taps2_map_range (m : Nat) :
    ∀ g : Nat → Nat, (∀ i ≤ m, g i ≤ max) →
      (taps2 ((List.range (m + 1)).map g) : Outcome (List (Sample s)))
        = .ok ((List.range m).map fun i => BitVec.ofNat s.bits (average2 (g i) (g (i + 1)))) := by
  -- induction on the number of averages; the line is looked at from one position further each time
  induction m with
  | zero => intro g _; rfl
  | succ m ih =>
    intro g hg
    have hfirst : (tap2 (g 0) (g 1) : Outcome (Sample s)) = _ :=
      tap2_of_le hmax (hg 0 (by omega)) (hg 1 (by omega))
    have hrest := ih (fun i => g (i + 1)) fun i hi => hg (i + 1) (by omega)
    rw [map_range_succ] at hrest
    rw [map_range_succ (m + 1), map_range_succ m, taps2, hfirst, Outcome.ok_bind, hrest,
      map_range_succ]
    rfl

/-- The three-tap averages of a line, position by position. -/
theorem taps3_map_range (m : Nat) :
    ∀ g : Nat → Nat, (∀ i ≤ m + 1, g i ≤ max) →
      (taps3 ((List.range (m + 2)).map g) : Outcome (List (Sample s)))
        = .ok ((List.range m).map fun i =>
            BitVec.ofNat s.bits (average3 (g i) (g (i + 1)) (g (i + 2)))) := by
  induction m with
  | zero => intro g _; rfl
  | succ m ih =>
    intro g hg
    have hfirst : (tap3 (g 0) (g 1) (g 2) : Outcome (Sample s)) = _ :=
      tap3_of_le hmax (hg 0 (by omega)) (hg 1 (by omega)) (hg 2 (by omega))
    have hrest := ih (fun i => g (i + 1)) fun i hi => hg (i + 1) (by omega)
    rw [map_range_succ (m + 1), map_range_succ m] at hrest
    rw [map_range_succ (m + 2), map_range_succ (m + 1), map_range_succ m, taps3, hfirst,
      Outcome.ok_bind, hrest, map_range_succ]
    rfl

end Taps

/-! ## §6. Cascades. -/

/-- A row one column further right, behind a new first sample. -/
theorem cons_dropLast_row {f g : Nat → Sample s} (h : ∀ c, g (c + 1) = f c) :
    g 0 :: ((List.range (n + 1)).map f).dropLast = (List.range (n + 1)).map g := by
  rw [List.range_succ, List.map_append, List.map_singleton, List.dropLast_concat,
    ← List.range_succ, map_range_succ]
  exact congrArg _ (List.map_congr_left fun c _ => (h c).symm)

/-- **A matrix that is constant along diagonals is the cascade of its first row and column.** -/
theorem cascade_eq_rows (m : Nat) :
    ∀ F : Nat → Nat → Sample s, (∀ r c, F (r + 1) (c + 1) = F r c) →
      cascade ((List.range (n + 1)).map (F 0)) ((List.range m).map fun r => F (r + 1) 0)
        = (List.range m).map fun r => (List.range (n + 1)).map (F (r + 1)) := by
  -- induction on the number of rows that follow; the matrix is looked at from one row lower each time
  induction m with
  | zero => intro F _; rfl
  | succ m ih =>
    intro F hF
    have hrest := ih (fun r => F (r + 1)) fun r c => hF (r + 1) c
    rw [map_range_succ m, map_range_succ m, cascade, cons_dropLast_row (hF 0)]
    exact congrArg _ hrest

/-- **A matrix that is constant along steps of two rows down and one column right is the cascade
of its first two rows and its first column.** -/
theorem cascade2_eq_rows (m : Nat) :
    ∀ F : Nat → Nat → Sample s, (∀ r c, F (r + 2) (c + 1) = F r c) →
      cascade2 ((List.range (n + 1)).map (F 0)) ((List.range (n + 1)).map (F 1))
          ((List.range m).map fun r => F (r + 2) 0)
        = (List.range m).map fun r => (List.range (n + 1)).map (F (r + 2)) := by
  -- as before; the window of two rows moves down by one
  induction m with
  | zero => intro F _; rfl
  | succ m ih =>
    intro F hF
    have hrest := ih (fun r => F (r + 1)) fun r c => hF (r + 1) c
    rw [map_range_succ m, map_range_succ m, cascade2, cons_dropLast_row (hF 0)]
    exact congrArg _ hrest

/-! ## §7. Slanted kernels. -/

theorem topLine_eq (h : n ≤ edge.above.size) :
    topLine n edge = .ok ((List.range (n + 1)).map fun i : Nat => edge.line i) := by
  rw [topLine, IntraEdge.aboveRow_of_le h, Outcome.ok_bind, map_range_succ, List.map_map]
  refine congrArg (fun rest => Except.ok (edge.topLeft.toNat :: rest)) ?_
  exact List.map_congr_left fun i _ => (edge.line_succ i).symm

theorem sideLine_eq (h : n ≤ edge.left.size) :
    sideLine n edge = .ok ((List.range (n + 1)).map fun i : Nat => edge.line (-i)) := by
  rw [sideLine, IntraEdge.leftColumn_of_le h, Outcome.ok_bind, map_range_succ, List.map_map]
  refine congrArg (fun rest => Except.ok (edge.topLeft.toNat :: rest)) ?_
  exact List.map_congr_left fun i _ => (edge.line_neg_succ i).symm

theorem cornerTap_eq (hmax : max ∈ s.maxima) (hn : 0 < n)
    (hline : ∀ i : Int, -n ≤ i → i ≤ n → edge.line i ≤ max) :
    (cornerTap ((List.range (n + 1)).map fun i : Nat => edge.line i)
        ((List.range (n + 1)).map fun i : Nat => edge.line (-i)) : Outcome (Sample s))
      = .ok (BitVec.ofNat s.bits (average3 (edge.line (-1)) (edge.line 0) (edge.line 1))) := by
  obtain ⟨m, rfl⟩ : ∃ m, n = m + 1 := ⟨n - 1, by omega⟩
  rw [map_range_succ (m + 1), map_range_succ m, map_range_succ (m + 1), map_range_succ m]
  exact tap3_of_le hmax (hline _ (by omega) (by omega)) (hline _ (by omega) (by omega))
    (hline _ (by omega) (by omega))

theorem d45_eq_predicted (hmax : max ∈ s.maxima) (h : edge.Supplies .d45 n max) :
    d45 n edge = .ok (predicted .d45 n edge max) := by
  have hle : ∀ i < 2 * n, edge.aboveAt i ≤ max := h.above_le
  have hread : ∀ i < 2 * n,
      elementAt ((List.range (2 * n)).map fun i => edge.above.getD i 0).toArray i
        = .ok (edge.above.getD i 0) := by
    intro i hi
    rw [elementAt_eq_ok_iff, List.getElem?_toArray, List.getElem?_map, List.getElem?_range hi]
    rfl
  rw [d45, IntraEdge.aboveRow_of_le (k := 2 * n) h.above_size, Outcome.ok_bind]
  apply Outcome.mapM_of_forall_ok
  intro r hr
  apply Outcome.mapM_of_forall_ok
  intro c hc
  have hr := List.mem_range.mp hr
  have hc := List.mem_range.mp hc
  rw [d45Cell, cell, value]
  -- an average along the row above, and past its end the last sample
  by_cases hin : r + c + 2 < 2 * n
  · rw [if_pos hin, if_pos hin, hread _ (by omega), Outcome.ok_bind, hread _ (by omega),
      Outcome.ok_bind, hread _ (by omega), Outcome.ok_bind]
    exact tap3_of_le hmax (hle _ (by omega)) (hle _ (by omega)) (hle _ (by omega))
  · rw [if_neg hin, if_neg hin, hread _ (by omega), edge.ofNat_aboveAt]

/-- The d135 cells lie on lines that run down and to the right. -/
theorem cell_d135_succ (r c : Nat) :
    cell .d135 n edge max (r + 1) (c + 1) = cell .d135 n edge max r c := by
  have hd : ((c + 1 : Nat) : Int) - ((r + 1 : Nat) : Int) = c - r := by omega
  simp only [cell, value, hd]

theorem cell_d135_top (c : Nat) :
    cell .d135 n edge max 0 (c + 1) = BitVec.ofNat s.bits
      (average3 (edge.line c) (edge.line (c + 1 : Nat)) (edge.line (c + 2 : Nat))) := by
  simp only [cell, value]
  congr 3
  omega

theorem cell_d135_left (r : Nat) :
    cell .d135 n edge max (r + 1) 0 = BitVec.ofNat s.bits
      (average3 (edge.line (-r)) (edge.line (-(r + 1 : Nat))) (edge.line (-(r + 2 : Nat)))) := by
  rw [average3_comm]
  simp only [cell, value]
  congr 3
  omega

theorem d135_eq_predicted (hn : 0 < n) (hmax : max ∈ s.maxima) (h : edge.Supplies .d135 n max) :
    d135 n edge = .ok (predicted .d135 n edge max) := by
  have hline : ∀ i : Int, -n ≤ i → i ≤ n → edge.line i ≤ max :=
    fun i hlow hhigh => line_le h rfl hlow hhigh
  rw [d135, topLine_eq (n := n) h.above_size, Outcome.ok_bind, sideLine_eq (n := n) h.left_size,
    Outcome.ok_bind,
    cornerTap_eq hmax hn hline, Outcome.ok_bind]
  obtain ⟨m, rfl⟩ : ∃ m, n = m + 1 := ⟨n - 1, by omega⟩
  rw [taps3_map_range hmax m _ fun i hi => hline _ (by omega) (by omega), Outcome.ok_bind,
    taps3_map_range hmax m _ fun i hi => hline _ (by omega) (by omega), Outcome.ok_bind]
  -- the first row starts with the corner's average, which is the cell in row zero and column zero
  have hfirst : BitVec.ofNat s.bits (average3 (edge.line (-1)) (edge.line 0) (edge.line 1))
      :: ((List.range m).map fun i : Nat => BitVec.ofNat s.bits
        (average3 (edge.line i) (edge.line (i + 1 : Nat)) (edge.line (i + 2 : Nat))))
      = (List.range (m + 1)).map (cell .d135 (m + 1) edge max 0) := by
    rw [map_range_succ m (cell .d135 (m + 1) edge max 0)]
    exact congrArg _ (List.map_congr_left fun c _ => (cell_d135_top c).symm)
  -- below it, the first column runs down the left side
  have hcolumn : ((List.range m).map fun r : Nat => BitVec.ofNat s.bits
        (average3 (edge.line (-r)) (edge.line (-(r + 1 : Nat))) (edge.line (-(r + 2 : Nat)))))
      = (List.range m).map fun r => cell .d135 (m + 1) edge max (r + 1) 0 :=
    List.map_congr_left fun r _ => (cell_d135_left r).symm
  rw [hfirst, hcolumn, cascade_eq_rows m _ cell_d135_succ, predicted, tabulate_succ]
  rfl

/-- The d117 cells lie on lines that run two rows down and one column to the right. -/
theorem cell_d117_succ (r c : Nat) :
    cell .d117 n edge max (r + 2) (c + 1) = cell .d117 n edge max r c := by
  have hx : ((c + 1 : Nat) : Int) - ((r + 2 : Nat) : Int) / 2 = c - (r : Int) / 2 := by omega
  have hy : ((r + 2 : Nat) : Int) - 2 * ((c + 1 : Nat) : Int) = r - 2 * c := by omega
  have hhalf : (r + 2) / 2 ≤ c + 1 ↔ r / 2 ≤ c := by omega
  simp only [cell, value, hx, hy, hhalf, Nat.add_mod_right]

theorem cell_d117_zero (c : Nat) :
    cell .d117 n edge max 0 c
      = BitVec.ofNat s.bits (average2 (edge.line c) (edge.line (c + 1 : Nat))) := by
  simp only [cell, value]
  rw [if_pos (by omega), if_pos trivial]
  congr 3

theorem cell_d117_one_succ (c : Nat) :
    cell .d117 n edge max 1 (c + 1) = BitVec.ofNat s.bits
      (average3 (edge.line c) (edge.line (c + 1 : Nat)) (edge.line (c + 2 : Nat))) := by
  simp only [cell, value]
  rw [if_pos (by omega), if_neg (by omega)]
  -- what is left is that the three positions are the same
  congr 3
  all_goals omega

theorem cell_d117_left (r : Nat) :
    cell .d117 n edge max (r + 2) 0 = BitVec.ofNat s.bits
      (average3 (edge.line (-r)) (edge.line (-(r + 1 : Nat))) (edge.line (-(r + 2 : Nat)))) := by
  simp only [cell, value]
  rw [if_neg (by omega)]
  congr 3
  all_goals omega

theorem d117_eq_predicted (hn : 1 < n) (hmax : max ∈ s.maxima) (h : edge.Supplies .d117 n max) :
    d117 n edge = .ok (predicted .d117 n edge max) := by
  have hline : ∀ i : Int, -n ≤ i → i ≤ n → edge.line i ≤ max :=
    fun i hlow hhigh => line_le h rfl hlow hhigh
  rw [d117, topLine_eq (n := n) h.above_size, Outcome.ok_bind, sideLine_eq (n := n) h.left_size,
    Outcome.ok_bind, cornerTap_eq hmax (by omega) hline]
  obtain ⟨m, rfl⟩ : ∃ m, n = m + 2 := ⟨n - 2, by omega⟩
  rw [taps2_map_range hmax (m + 2) _ fun i hi => hline _ (by omega) (by omega), Outcome.ok_bind,
    Outcome.ok_bind,
    taps3_map_range hmax (m + 1) _ fun i hi => hline _ (by omega) (by omega), Outcome.ok_bind,
    ← List.map_take, List.take_range, Nat.min_eq_left (by omega),
    taps3_map_range hmax m _ fun i hi => hline _ (by omega) (by omega), Outcome.ok_bind]
  -- row zero: averages of two along the row above
  have hzero : ((List.range (m + 2)).map fun c : Nat =>
        BitVec.ofNat s.bits (average2 (edge.line c) (edge.line (c + 1 : Nat))))
      = (List.range (m + 2)).map (cell .d117 (m + 2) edge max 0) :=
    List.map_congr_left fun c _ => (cell_d117_zero c).symm
  -- row one: averages of three, the first across the corner
  have hone : BitVec.ofNat s.bits (average3 (edge.line (-1)) (edge.line 0) (edge.line 1))
      :: ((List.range (m + 1)).map fun i : Nat => BitVec.ofNat s.bits
        (average3 (edge.line i) (edge.line (i + 1 : Nat)) (edge.line (i + 2 : Nat))))
      = (List.range (m + 2)).map (cell .d117 (m + 2) edge max 1) := by
    rw [map_range_succ (m + 1) (cell .d117 (m + 2) edge max 1)]
    exact congrArg _ (List.map_congr_left fun c _ => (cell_d117_one_succ c).symm)
  -- from row two on the first column runs down the left side
  have hcolumn : ((List.range m).map fun r : Nat => BitVec.ofNat s.bits
        (average3 (edge.line (-r)) (edge.line (-(r + 1 : Nat))) (edge.line (-(r + 2 : Nat)))))
      = (List.range m).map fun r => cell .d117 (m + 2) edge max (r + 2) 0 :=
    List.map_congr_left fun r _ => (cell_d117_left r).symm
  rw [hzero, hone, hcolumn, cascade2_eq_rows m _ cell_d117_succ, predicted, tabulate_succ,
    map_range_succ m]
  rfl

/-! ## §8. All kernels. -/

/-- **Every portable kernel predicts the cells of the closed form**, and none of its checked steps
faults. -/
theorem block_eq_predicted (kernel : IntraKernel) (hside : IsSide n) (hmax : max ∈ s.maxima)
    (h : edge.Supplies kernel n max) :
    block kernel n edge max = .ok (predicted kernel n edge max) := by
  have hn := hside.one_lt
  cases kernel with
  | dc => exact dc_eq_predicted hside hmax h
  | dcLeft => exact dcLeft_eq_predicted hside hmax h
  | dcTop => exact dcTop_eq_predicted hside hmax h
  | dc128 => exact dc128_eq_predicted hmax
  | v => exact v_eq_predicted h
  | h => exact h_eq_predicted h
  | tm => exact tm_eq_predicted hmax h
  | d45 => exact d45_eq_predicted hmax h
  | d117 => exact d117_eq_predicted hn hmax h
  | d135 => exact d135_eq_predicted (by omega) hmax h

/-- On a destination that holds the block, the kernel writes the predicted block and nothing else. -/
theorem predict_of_fits {kernel : IntraKernel} {destination : Plane s} (hside : IsSide n)
    (hmax : max ∈ s.maxima) (h : edge.Supplies kernel n max)
    (hfits : destination.fits n n = .ok true) :
    predict kernel n destination edge max = destination.paint (predicted kernel n edge max) := by
  rw [predict, Plane.assertFits_of_fits hfits, Outcome.ok_bind, IntraEdge.assertHolds_of_supplies h,
    Outcome.ok_bind, block_eq_predicted kernel hside hmax h]
  rfl

end Portable

end Intra

end PixelKernels
