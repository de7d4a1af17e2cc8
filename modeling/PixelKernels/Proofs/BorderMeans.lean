/-
  PixelKernels.Proofs.BorderMeans
  ───────────────────────────────
  **WHAT A KERNEL FILLS A BLOCK WITH IS OFF BY AT MOST HALF.**

  Three kernels fill the block with one value, the mean of the samples of one
  side of the border or of both.  Samples are far too small for the sum to
  overflow, so what is left of the mean is its rounding
  (`mul_div_add_half_within`), whichever predictor computes it
  (`fillsWithMean_of_supplies`).
-/
import PixelKernels.Proofs.PredictorConformance
import PixelKernels.Proofs.RoundedMeans
import PixelKernels.Proofs.RoundingLaws

namespace PixelKernels

/-! ## §1. Means over a border. -/

namespace Intra

variable {s : Storage} {kernel : IntraKernel}

/-- The kernels that fill the block with one mean of the border. -/
def meanKernels : List IntraKernel := [.dc, .dcTop, .dcLeft]

theorem mem_meanKernels : kernel ∈ meanKernels ↔ kernel = .dc ∨ kernel = .dcTop ∨ kernel = .dcLeft := by
  simp [meanKernels]

theorem averages_of_mean (hkernel : kernel ∈ meanKernels) : kernel.averages = true := by
  obtain rfl | rfl | rfl := mem_meanKernels.mp hkernel
  all_goals rfl

/-- The mean is over one side of the border or over two. -/
theorem length_taps_of_mean (n : Nat) (edge : IntraEdge s) (hkernel : kernel ∈ meanKernels) :
    (taps kernel n edge 0 0).length = if kernel = .dc then 2 * n else n := by
  obtain rfl | rfl | rfl := mem_meanKernels.mp hkernel
  all_goals simp [taps, Nat.two_mul]

/-- Every cell is the mean of the same samples. -/
theorem map_value_of_mean (n max : Nat) (edge : IntraEdge s) (hkernel : kernel ∈ meanKernels) :
    ((Reference.cells n n).map fun c => value kernel n edge max c.2 c.1)
      = List.replicate (n * n) (roundedMean (taps kernel n edge 0 0)) := by
  have hsame : ∀ r c, taps kernel n edge r c = taps kernel n edge 0 0 := by
    intro r c
    obtain rfl | rfl | rfl := mem_meanKernels.mp hkernel
    all_goals rfl
  simp only [value_eq_roundedMean (averages_of_mean hkernel), hsame]
  rw [List.map_const', Reference.length_cells]

/-- Every predictor of the kernel fills a destination with one value, off by at most half from the mean
of the samples of one side or of two, and by half only upwards. -/
structure FillsWithMean (depth : Depth) (kernel : IntraKernel) (block : BlockSize)
    (edge : IntraEdge depth.storage) (samples : List Nat) (d : Nat) : Prop where
  count : samples.length = if kernel = .dc then 2 * block.width else block.width
  writes : ∀ run, IsIntraKernel kernel block run →
    WritesCells run block.width edge depth.max (List.replicate (block.width * block.width) d)
  lower : (samples.sum : ℚ) - samples.length / 2 < samples.length * d
  upper : (samples.length * d : ℚ) ≤ samples.sum + samples.length / 2

/-- **A mean kernel fills the block with the mean of its taps.** -/
theorem fillsWithMean_of_supplies {depth : Depth} {block : BlockSize} {edge : IntraEdge depth.storage}
    (hblock : (KernelKind.intra kernel).supports block = true) (hkernel : kernel ∈ meanKernels)
    (h : edge.Supplies kernel block.width depth.max) :
    FillsWithMean depth kernel block edge (taps kernel block.width edge 0 0)
      (roundedMean (taps kernel block.width edge 0 0)) := by
  have hcount := length_taps_of_mean block.width edge hkernel
  have hpos := length_taps_pos (averages_of_mean hkernel) (isSide_of_supports hblock).pos edge 0 0
  obtain ⟨hlower, hupper⟩ := mul_div_add_half_within (taps kernel block.width edge 0 0).sum hpos
  refine ⟨hcount, fun run hrun => ?_, hlower, hupper⟩
  rw [← map_value_of_mean block.width depth.max edge hkernel]
  exact writesCells_of_isIntraKernel hrun hblock h

end Intra

/-! ## §2. The laws. -/

/-- **The averages round half up and overflow exactly where their last sum does; so a mean kernel never
overflows on samples in range, and what it fills the block with is off by at most half.** -/
theorem averages_round_half_up :
    (∀ x y, RoundsTo (avg2 x y) ((x + y) / 2) (2 ^ 32 ≤ x + y + 1)) ∧
    (∀ x y z, RoundsTo (avg3 x y z) ((x + 2 * y + z) / 4) (2 ^ 32 ≤ x + 2 * y + z + 2)) ∧
    (∀ v shift, RoundsTo (round2 v shift) (v / 2 ^ shift)
      (32 ≤ shift ∨ 1 ≤ shift ∧ 2 ^ 32 ≤ v + 2 ^ (shift - 1))) ∧
    (∀ v, (ulog2 v = .error .overflow ↔ v = 0) ∧ (1 ≤ v → ulog2 v = .ok ⌊Real.logb 2 v⌋₊)) ∧
    ∀ (depth : Depth) (kernel : IntraKernel) (block : BlockSize) (edge : IntraEdge depth.storage),
      (KernelKind.intra kernel).supports block = true → kernel ∈ Intra.meanKernels →
      edge.Supplies kernel block.width depth.max →
        ∃ d, Intra.FillsWithMean depth kernel block edge (Intra.taps kernel block.width edge 0 0) d :=
  ⟨avg2_roundsTo, avg3_roundsTo, round2_roundsTo,
    fun _ => ⟨ulog2_eq_overflow_iff, ulog2_eq_floor_logb⟩,
    fun _ _ _ _ hblock hkernel h => ⟨_, Intra.fillsWithMean_of_supplies hblock hkernel h⟩⟩

/-- A border with ones above and zeros to the left: the mean of both sides is a half. -/
def halfLit : IntraEdge .byte := ⟨0, Array.replicate 4 1, Array.replicate 4 0, true, true⟩

theorem halfLit_supplies : halfLit.Supplies .dc 4 Depth.eight.max where
  above_size := by decide
  left_size := by decide
  above_le := by decide
  left_le := by decide
  corner_le := nofun

/-- The half goes up. -/
theorem averages_round_half_up_of_halfLit :
    (KernelKind.intra .dc).supports .b4x4 = true ∧ IntraKernel.dc ∈ Intra.meanKernels ∧
    halfLit.Supplies .dc 4 Depth.eight.max ∧
    Intra.FillsWithMean .eight .dc .b4x4 halfLit [1, 1, 1, 1, 0, 0, 0, 0] 1 := by
  obtain ⟨_, _, _, _, hmeans⟩ := averages_round_half_up
  obtain ⟨d, hfills⟩ : ∃ d, Intra.FillsWithMean .eight .dc .b4x4 halfLit [1, 1, 1, 1, 0, 0, 0, 0] d :=
    hmeans .eight .dc .b4x4 halfLit (by decide) (by decide) halfLit_supplies
  refine ⟨by decide, by decide, halfLit_supplies, ?_⟩
  -- the two bounds leave one value
  have hd : d = 1 := by
    have hlower := hfills.lower
    have hupper := hfills.upper
    norm_num at hlower hupper
    omega
  rwa [hd] at hfills

end PixelKernels
