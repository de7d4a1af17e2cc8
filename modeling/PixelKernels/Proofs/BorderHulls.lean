/-
  PixelKernels.Proofs.BorderHulls
  ───────────────────────────────
  **A PREDICTION STAYS BETWEEN THE SAMPLES THAT IT IS MADE OF.**

  `IntraEdge.reads` are the numbers that a kernel takes from a border.  The
  catalog declares one sample more for d117, which its first column leaves out.

    • A mean that is rounded half up adds half its divisor before it divides.
      That never takes it past its largest number, nor keeps it below its
      smallest one (`Intra.roundedMean_le`, `Intra.le_roundedMean`).
    • The taps of every cell are among the numbers that are read
      (`Intra.mem_reads_of_mem_taps`): for d117 and d135 the line through the
      corner does not leave the stretch that is there, however far down the
      block a cell lies.
    • So all cells of the kernels that average are between the smallest and the
      largest number read.  tm is clipped into the range of the depth.  Where
      all numbers read are one, that one is predicted everywhere.
-/
import PixelKernels.Proofs.PredictedNumbers

namespace PixelKernels

open Finset
open Intra (value taps roundedMean)

variable {s : Storage} {kernel : IntraKernel} {n max : Nat} {edge : IntraEdge s}

/-! ## §1. Rounded means. -/

namespace Intra

variable {numbers : List Nat} (hpos : 0 < numbers.length)
include hpos

/-- A rounded mean is not above all of its numbers. -/
theorem roundedMean_le {high : Nat} (h : ∀ v ∈ numbers, v ≤ high) : roundedMean numbers ≤ high := by
  have hsum := List.sum_le_card_nsmul numbers high h
  rw [Nat.nsmul_eq_mul] at hsum
  exact mean_le hpos hsum

/-- A rounded mean is not below all of its numbers. -/
theorem le_roundedMean {low : Nat} (h : ∀ v ∈ numbers, low ≤ v) : low ≤ roundedMean numbers := by
  have hsum := List.card_nsmul_le_sum numbers low h
  rw [Nat.nsmul_eq_mul, Nat.mul_comm] at hsum
  unfold roundedMean
  rw [Nat.le_div_iff_mul_le hpos]
  omega

end Intra

/-! ## §2. What a kernel reads of a border. -/

/-- Number of left samples that a kernel of side `n` reads.  d117 asks for one more than that. -/
def IntraKernel.leftReads (n : Nat) : IntraKernel → Nat
  | .d117 => n - 1
  | kernel => kernel.leftLength n

/-- The numbers that a kernel of side `n` reads of a border. -/
def IntraEdge.reads (edge : IntraEdge s) (kernel : IntraKernel) (n : Nat) : Finset Nat :=
  (range (kernel.aboveLength n)).image edge.aboveAt ∪ (range (kernel.leftReads n)).image edge.leftAt
    ∪ if kernel.readsTopLeft then {edge.topLeft.toNat} else ∅

namespace IntraEdge

theorem aboveAt_mem_reads {i : Nat} (hi : i < kernel.aboveLength n) :
    edge.aboveAt i ∈ edge.reads kernel n := by
  unfold reads
  exact mem_union_left _ (mem_union_left _ (mem_image_of_mem _ (mem_range.mpr hi)))

theorem leftAt_mem_reads {i : Nat} (hi : i < kernel.leftReads n) :
    edge.leftAt i ∈ edge.reads kernel n := by
  unfold reads
  exact mem_union_left _ (mem_union_right _ (mem_image_of_mem _ (mem_range.mpr hi)))

theorem corner_mem_reads (h : kernel.readsTopLeft = true) :
    edge.topLeft.toNat ∈ edge.reads kernel n := by
  unfold reads
  rw [if_pos h]
  exact mem_union_right _ (mem_singleton_self _)

/-- From the last left sample read to the last above sample read, the line is read as a whole. -/
theorem line_mem_reads (hcorner : kernel.readsTopLeft = true) {i : Int}
    (hlow : -(kernel.leftReads n : Int) ≤ i) (hhigh : i ≤ kernel.aboveLength n) :
    edge.line i ∈ edge.reads kernel n := by
  unfold line
  split
  · exact aboveAt_mem_reads (by omega)
  · split
    · exact corner_mem_reads hcorner
    · exact leftAt_mem_reads (by omega)

end IntraEdge

/-! ## §3. Cells. -/

namespace Intra

/-- Three taps hold three numbers. -/
theorem mem_triple {v x y z : Nat} : v ∈ triple x y z ↔ v = x ∨ v = y ∨ v = z := by
  simp only [triple, List.mem_cons, List.not_mem_nil, or_false]
  tauto

/-- **The taps of a cell are among the numbers that its kernel reads.** -/
theorem mem_reads_of_mem_taps {r c v : Nat} (hr : r < n) (hc : c < n)
    (hv : v ∈ taps kernel n edge r c) : v ∈ edge.reads kernel n := by
  cases kernel with
  | dc =>
    simp only [taps, List.mem_append, List.mem_map, List.mem_range] at hv
    rcases hv with ⟨i, hi, rfl⟩ | ⟨i, hi, rfl⟩
    · exact IntraEdge.aboveAt_mem_reads hi
    · exact IntraEdge.leftAt_mem_reads hi
  | dcTop =>
    simp only [taps, List.mem_map, List.mem_range] at hv
    obtain ⟨i, hi, rfl⟩ := hv
    exact IntraEdge.aboveAt_mem_reads hi
  | dcLeft =>
    simp only [taps, List.mem_map, List.mem_range] at hv
    obtain ⟨i, hi, rfl⟩ := hv
    exact IntraEdge.leftAt_mem_reads hi
  | dc128 => cases hv
  | tm => cases hv
  | v =>
    obtain rfl := List.mem_singleton.mp hv
    exact IntraEdge.aboveAt_mem_reads hc
  | h =>
    obtain rfl := List.mem_singleton.mp hv
    exact IntraEdge.leftAt_mem_reads hr
  | d45 =>
    have hread : ∀ i < 2 * n, edge.aboveAt i ∈ edge.reads .d45 n :=
      fun i hi => IntraEdge.aboveAt_mem_reads hi
    simp only [taps] at hv
    split at hv
    · rcases mem_triple.mp hv with rfl | rfl | rfl <;> exact hread _ (by omega)
    · obtain rfl := List.mem_singleton.mp hv
      exact hread _ (by omega)
  | d117 =>
    -- the first column goes down to the sample left of the row above it
    have hread : ∀ i : Int, -((n - 1 : Nat) : Int) ≤ i → i ≤ n → edge.line i ∈ edge.reads .d117 n :=
      fun i hlow hhigh => IntraEdge.line_mem_reads rfl hlow hhigh
    simp only [taps] at hv
    split at hv
    · split at hv
      · simp only [List.mem_cons, List.not_mem_nil, or_false] at hv
        rcases hv with rfl | rfl <;> exact hread _ (by omega) (by omega)
      · rcases mem_triple.mp hv with rfl | rfl | rfl <;> exact hread _ (by omega) (by omega)
    · rcases mem_triple.mp hv with rfl | rfl | rfl <;> exact hread _ (by omega) (by omega)
  | d135 =>
    have hread : ∀ i : Int, -(n : Int) ≤ i → i ≤ n → edge.line i ∈ edge.reads .d135 n :=
      fun i hlow hhigh => IntraEdge.line_mem_reads rfl hlow hhigh
    rcases mem_triple.mp hv with rfl | rfl | rfl <;> exact hread _ (by omega) (by omega)

/-- **A bound on what is read is a bound on every cell of a kernel that averages.** -/
theorem value_between (max : Nat) {r c low high : Nat} (havg : kernel.averages = true) (hr : r < n)
    (hc : c < n) (h : ∀ v ∈ edge.reads kernel n, low ≤ v ∧ v ≤ high) :
    low ≤ value kernel n edge max r c ∧ value kernel n edge max r c ≤ high := by
  have hpos := length_taps_pos havg (by omega : 0 < n) edge r c
  rw [value_eq_roundedMean havg]
  exact ⟨le_roundedMean hpos fun v hv => (h v (mem_reads_of_mem_taps hr hc hv)).1,
    roundedMean_le hpos fun v hv => (h v (mem_reads_of_mem_taps hr hc hv)).2⟩

/-- Something is read by every kernel that averages. -/
theorem reads_nonempty (havg : kernel.averages = true) (hn : 0 < n) (edge : IntraEdge s) :
    (edge.reads kernel n).Nonempty := by
  obtain ⟨v, hv⟩ := List.exists_mem_of_length_pos (length_taps_pos havg hn edge 0 0)
  exact ⟨v, mem_reads_of_mem_taps hn hn hv⟩

/-- tm adds and takes away the same number where all numbers are one. -/
theorem value_tm_of_constant {r c k : Nat} (hsupplies : edge.Supplies .tm n max) (hr : r < n)
    (hc : c < n) (h : ∀ v ∈ edge.reads .tm n, v = k) : value .tm n edge max r c = k := by
  have habove : edge.aboveAt c = k := h _ (IntraEdge.aboveAt_mem_reads hc)
  have hleft : edge.leftAt r = k := h _ (IntraEdge.leftAt_mem_reads hr)
  have hcorner : edge.topLeft.toNat = k := h _ (IntraEdge.corner_mem_reads rfl)
  have hle : edge.aboveAt c ≤ max := hsupplies.above_le c hc
  simp only [value]
  omega

/-- What a kernel predicts from a border, compared with the numbers that it reads of it. -/
structure StaysBetween (kernel : IntraKernel) (n max : Nat) (edge : IntraEdge s)
    (cells : Nat → Nat → Nat) : Prop where
  /-- Means lie between the smallest and the largest number that is read. -/
  between : kernel.averages = true → ∀ r < n, ∀ c < n,
    (edge.reads kernel n).min ≤ cells r c ∧ cells r c ≤ (edge.reads kernel n).max
  /-- tm lies in the range of the depth. -/
  clipped : kernel = .tm → ∀ r < n, ∀ c < n, cells r c ≤ max
  /-- A border of one number predicts that number. -/
  constant : kernel ≠ .dc128 → ∀ k, (∀ v ∈ edge.reads kernel n, v = k) →
    ∀ r < n, ∀ c < n, cells r c = k

theorem staysBetween_value (hsupplies : edge.Supplies kernel n max) :
    StaysBetween kernel n max edge (value kernel n edge max) where
  between := by
    intro havg r hr c hc
    have hsome := reads_nonempty havg (by omega : 0 < n) edge
    have hends : ∀ v ∈ edge.reads kernel n,
        (edge.reads kernel n).min' hsome ≤ v ∧ v ≤ (edge.reads kernel n).max' hsome :=
      fun v hv => ⟨min'_le _ v hv, le_max' _ v hv⟩
    obtain ⟨hlow, hhigh⟩ := value_between max havg hr hc hends
    rw [← coe_min' hsome, ← coe_max' hsome]
    exact ⟨WithTop.coe_le_coe.mpr hlow, WithBot.coe_le_coe.mpr hhigh⟩
  clipped := by
    rintro rfl r hr c hc
    exact value_le hsupplies hr hc
  constant := by
    intro hkernel k hk r hr c hc
    by_cases havg : kernel.averages = true
    · obtain ⟨hlow, hhigh⟩ := value_between max havg hr hc
        fun v hv => ⟨(hk v hv).ge, (hk v hv).le⟩
      exact Nat.le_antisymm hhigh hlow
    · -- what is left is tm
      cases kernel with
      | dc128 => exact absurd rfl hkernel
      | tm => exact value_tm_of_constant hsupplies hr hc hk
      | _ => exact absurd rfl havg

end Intra

/-! ## §4. Any level. -/

/-- **At every level a prediction stays between the samples that it is made of**, tm in the range of
the depth, and a border of one number predicts that number, but for dc_128, which reads nothing. -/
theorem predictions_stay_between_reads (processor : Processor) (level : CpuLevel) (depth : Depth)
    (block : BlockSize) (mode : IntraMode) (edge : IntraEdge depth.storage)
    (hblock : (KernelKind.intra .dc).supports block = true)
    (hedge : edge.Supplies (edge.kernelFor mode) block.width depth.max) :
    ∃ kernels cells, Kernels.atLevel processor level = .ok kernels ∧
      kernels.Predicts depth block mode edge cells ∧
      Intra.StaysBetween (edge.kernelFor mode) block.width depth.max edge cells := by
  obtain ⟨kernels, hkernels, hselects⟩ := Kernels.atLevel_selects processor level
  exact ⟨kernels, _, hkernels, Kernels.predicts_of_supplies hselects rfl hblock hedge,
    Intra.staysBetween_value hedge⟩

/-- A dim border, but for a bright sample at the lower end of the left column. -/
def dimBorder : IntraEdge .word :=
  ⟨7, Array.replicate 8 7, (Array.replicate 7 7).push 4095, true, true⟩

theorem dimBorder_supplies : dimBorder.Supplies .d117 8 Depth.twelve.max where
  above_size := by decide
  left_size := by decide
  above_le := by decide
  left_le := by decide
  corner_le := by decide

/-- d117 does not read the last sample of the left column, and so its block is as dim as the rest. -/
theorem d117_of_dimBorder_is_dim :
    (KernelKind.intra .dc).supports .b8x8 = true ∧ dimBorder.Supplies .d117 8 Depth.twelve.max ∧
    ∃ kernels cells, Kernels.atLevel .full .v3 = .ok kernels ∧
      kernels.Predicts .twelve .b8x8 .d117 dimBorder cells ∧ ∀ r < 8, ∀ c < 8, cells r c = 7 := by
  obtain ⟨kernels, cells, hkernels, hpredicts, hstays⟩ :=
    predictions_stay_between_reads .full .v3 .twelve .b8x8 .d117 dimBorder (by decide)
      dimBorder_supplies
  have hreads : ∀ v ∈ dimBorder.reads .d117 8, v = 7 := by decide
  exact ⟨by decide, dimBorder_supplies, kernels, cells, hkernels, hpredicts,
    hstays.constant (by decide) 7 hreads⟩

end PixelKernels
