/-
  PixelKernels.Proofs.DepthScaling
  ────────────────────────────────
  **A DEEPER BORDER PREDICTS A DEEPER BLOCK, UP TO ROUNDING AND CLIPPING.**

  Multiplying every sample of a border by `2 ^ k` takes it from one depth to
  the one that has `k` more bits.  What that does to the predicted block is not
  the same for all kernels (`Intra.ScalesBy`):

    • v, h and dc_128 scale exactly.
    • tm scales exactly where it is not clipped at the top.  Where it is, both
      depths show their maximum, and the maxima do not scale exactly.
    • A rounded mean is off by half a unit at most.  The deeper mean has the
      finer unit, so the two differ by half a shallow unit at most, and not at
      all where the division is exact (`Intra.roundedMean_scaled`).
-/
import PixelKernels.Proofs.PredictedNumbers

namespace PixelKernels

open Intra (value taps roundedMean)

variable {s t : Storage}

/-! ## §1. Rounded means and multiples. -/

namespace Intra

variable {numbers : List Nat}

/-- A rounded mean is at most half a unit too large. -/
theorem two_mul_roundedMean_le (numbers : List Nat) :
    2 * (numbers.length * roundedMean numbers) ≤ 2 * numbers.sum + numbers.length :=
  mul_div_add_half_le numbers.sum numbers.length

/-- A rounded mean is at most half a unit too small. -/
theorem le_two_mul_roundedMean (numbers : List Nat) (hpos : 0 < numbers.length) :
    2 * numbers.sum ≤ 2 * (numbers.length * roundedMean numbers) + numbers.length :=
  (lt_mul_div_add_half numbers.sum hpos).le

/-- Where the division is exact nothing is rounded. -/
theorem roundedMean_of_sum_eq {q : Nat} (hpos : 0 < numbers.length)
    (hsum : numbers.sum = numbers.length * q) : roundedMean numbers = q := by
  have hhalf : numbers.length / 2 / numbers.length = 0 := Nat.div_eq_of_lt (by omega)
  rw [roundedMean, hsum, Nat.mul_add_div hpos, hhalf, Nat.add_zero]

/-- **The mean of the multiples is at most half a factor away from the multiple of the mean.** -/
theorem roundedMean_scaled (half : Nat) (hpos : 0 < numbers.length) :
    ((roundedMean (numbers.map (2 * half * ·)) : Int) - (2 * half * roundedMean numbers : Nat)).natAbs
      ≤ half := by
  have hlength : (numbers.map (2 * half * ·)).length = numbers.length := List.length_map _
  have hupper := two_mul_roundedMean_le (numbers.map (2 * half * ·))
  have hlower := le_two_mul_roundedMean (numbers.map (2 * half * ·)) (by rwa [hlength])
  rw [hlength, List.sum_map_mul_left, List.map_id'] at hupper hlower
  have hupper' := Nat.mul_le_mul_left (2 * half) (two_mul_roundedMean_le numbers)
  have hlower' := Nat.mul_le_mul_left (2 * half) (le_two_mul_roundedMean numbers hpos)
  -- both means are compared with the exact one, in units of the common divisor
  have habove : numbers.length * (2 * roundedMean (numbers.map (2 * half * ·)))
      ≤ numbers.length * (2 * (2 * half * roundedMean numbers) + 2 * half + 1) := by
    linarith only [hupper, hlower']
  have hbelow : numbers.length * (2 * (2 * half * roundedMean numbers))
      ≤ numbers.length * (2 * roundedMean (numbers.map (2 * half * ·)) + 2 * half + 1) := by
    linarith only [hlower, hupper']
  have hle := Nat.le_of_mul_le_mul_left habove hpos
  have hge := Nat.le_of_mul_le_mul_left hbelow hpos
  omega

/-- A mean that is exact scales exactly. -/
theorem roundedMean_scaled_of_dvd (factor : Nat) (hpos : 0 < numbers.length)
    (hdvd : numbers.length ∣ numbers.sum) :
    roundedMean (numbers.map (factor * ·)) = factor * roundedMean numbers := by
  obtain ⟨q, hsum⟩ := hdvd
  rw [roundedMean_of_sum_eq hpos hsum]
  refine roundedMean_of_sum_eq (by rwa [List.length_map]) ?_
  rw [List.sum_map_mul_left, List.map_id', hsum, List.length_map, Nat.mul_left_comm]

end Intra

/-! ## §2. Depths and their factors. -/

/-- What a sample of one depth is multiplied by to become a sample of a deeper one. -/
def Depth.factorTo (lo hi : Depth) : Nat := 2 ^ (hi.bits - lo.bits)

namespace Depth

variable {lo hi : Depth} (h : lo.bits < hi.bits)
include h

theorem factorTo_mul_max_add_one : lo.factorTo hi * (lo.max + 1) = hi.max + 1 := by
  rw [max_add_one, max_add_one, Nat.one_shiftLeft, Nat.one_shiftLeft, factorTo, ← Nat.pow_add,
    Nat.sub_add_cancel h.le]

theorem two_dvd_factorTo : 2 ∣ lo.factorTo hi := dvd_pow_self 2 (by omega)

/-- A sample in range stays in range. -/
theorem factorTo_mul_le {v : Nat} (hv : v ≤ lo.max) : lo.factorTo hi * v ≤ hi.max := by
  have hscaled := Nat.mul_le_mul_left (lo.factorTo hi) hv
  have htop := factorTo_mul_max_add_one h
  have hpos : 0 < lo.factorTo hi := Nat.two_pow_pos _
  rw [Nat.mul_succ] at htop
  omega

end Depth

/-- The border with every sample multiplied, in cells of the given width. -/
def IntraEdge.scaled (t : Storage) (factor : Nat) (edge : IntraEdge s) : IntraEdge t :=
  edge.map fun v => BitVec.ofNat t.bits (factor * v.toNat)

/-! ## §3. What scaling the border does to the cells. -/

/-- How the cells `high` that are predicted from a scaled border relate to the cells `low` that are
predicted from the border itself, at a depth with this maximum. -/
structure Intra.ScalesBy (factor max n : Nat) (kernel : IntraKernel) (edge : IntraEdge s)
    (low high : Nat → Nat → Nat) : Prop where
  copied : kernel = .v ∨ kernel = .h ∨ kernel = .dc128 →
    ∀ r < n, ∀ c < n, high r c = factor * low r c
  clipped : kernel = .tm → ∀ r < n, ∀ c < n,
    if (max : Int) < edge.aboveAt c + edge.leftAt r - edge.topLeft.toNat then
      low r c = max ∧ high r c = factor * low r c + factor - 1
    else high r c = factor * low r c
  rounded : kernel.averages = true → ∀ r < n, ∀ c < n,
    low r c = roundedMean (taps kernel n edge r c) ∧
      ((high r c : Int) - (factor * low r c : Nat)).natAbs ≤ factor / 2 ∧
      ((taps kernel n edge r c).length ∣ (taps kernel n edge r c).sum →
        high r c = factor * low r c)

namespace Intra

variable {kernel : IntraKernel} {n factor max top : Nat} {edge : IntraEdge s} {image : IntraEdge t}

section Clipped

variable (htop : factor * (max + 1) = top + 1) {v : Int}
include htop

/-- A number that is clipped at the top is clipped again after scaling, at a top that is not quite the
multiple of the old one. -/
theorem clip_scaled_of_lt (hover : (max : Int) < v) :
    min (factor * v).toNat top = factor * min v.toNat max + factor - 1 := by
  have hscaled : (factor : Int) * (max + 1) ≤ factor * v :=
    Int.mul_le_mul_of_nonneg_left (by omega) (by omega)
  have hcast : (factor : Int) * (max + 1) = top + 1 := by exact_mod_cast htop
  rw [Nat.min_eq_right (by omega : top ≤ _), Nat.min_eq_right (by omega : max ≤ _)]
  rw [Nat.mul_succ] at htop
  omega

/-- Any other number scales exactly, clipped at zero or not at all. -/
theorem clip_scaled_of_le (hunder : v ≤ max) :
    min (factor * v).toNat top = factor * min v.toNat max := by
  have hpos : 0 < factor := Nat.pos_of_ne_zero fun hzero => by
    rw [hzero, Nat.zero_mul] at htop
    omega
  rcases Int.le_total 0 v with hv | hv
  · obtain ⟨m, rfl⟩ := Int.eq_ofNat_of_zero_le hv
    have hscaled : factor * m ≤ factor * max := Nat.mul_le_mul_left factor (by omega)
    rw [Nat.mul_succ] at htop
    rw [← Int.natCast_mul, Int.toNat_natCast, Int.toNat_natCast, Nat.min_eq_left (by omega),
      Nat.min_eq_left (by omega)]
  · have hscaled : factor * v ≤ 0 := Int.mul_nonpos_of_nonneg_of_nonpos (by omega) hv
    rw [Int.toNat_of_nonpos hscaled, Int.toNat_of_nonpos hv, Nat.zero_min, Nat.zero_min, Nat.mul_zero]

end Clipped

/-- **Predicted cells scale with the border, up to rounding and clipping.** -/
theorem scalesBy_of_mapsTo (h : edge.MapsTo image (factor * ·) kernel n)
    (htop : factor * (max + 1) = top + 1) (heven : 2 ∣ factor) (hmax : 2 ∣ max + 1) :
    ScalesBy factor max n kernel edge (value kernel n edge max) (value kernel n image top) where
  copied := by
    rintro (rfl | rfl | rfl) r hr c hc
    · exact h.above c hc
    · exact h.left r hr
    · show (top + 1) / 2 = factor * ((max + 1) / 2)
      rw [← htop, Nat.mul_div_assoc factor hmax]
  clipped := by
    rintro rfl r hr c hc
    have hcell : value .tm n image top r c
        = min (factor * ((edge.aboveAt c : Int) + (edge.leftAt r - edge.topLeft.toNat))).toNat top := by
      simp only [value, h.above c hc, h.left r hr, h.corner rfl]
      push_cast
      rw [Int.mul_add, Int.mul_sub]
    rw [hcell, Int.add_sub_assoc]
    split
    · next hover => exact ⟨Nat.min_eq_right (by omega), clip_scaled_of_lt htop hover⟩
    · next hunder => exact clip_scaled_of_le htop (Int.not_lt.mp hunder)
  rounded := by
    intro havg r hr c hc
    have hpos := length_taps_pos havg (by omega : 0 < n) edge r c
    obtain ⟨half, rfl⟩ := heven
    rw [value_eq_roundedMean havg, value_eq_roundedMean havg, h.taps hr hc]
    refine ⟨rfl, ?_, roundedMean_scaled_of_dvd _ hpos⟩
    rw [Nat.mul_div_cancel_left half (by decide)]
    exact roundedMean_scaled half hpos

end Intra

/-! ## §4. Any level. -/

section Scaled

variable {lo hi : Depth} (hdeeper : lo.bits < hi.bits)
include hdeeper

/-- A sample in range is multiplied without a carry out of its cell. -/
theorem Depth.toNat_scaled {v : Nat} (hv : v ≤ lo.max) :
    (BitVec.ofNat hi.storage.bits (lo.factorTo hi * v)).toNat = lo.factorTo hi * v := by
  have hle := factorTo_mul_le hdeeper hv
  have hlt := hi.max_lt_two_pow_storage
  rw [Nat.one_shiftLeft] at hlt
  rw [BitVec.toNat_ofNat, Nat.mod_eq_of_lt (by omega)]

variable {edge : IntraEdge lo.storage} {kernel : IntraKernel} {n : Nat}
  (h : edge.Supplies kernel n lo.max)
include h

theorem IntraEdge.mapsTo_scaled :
    edge.MapsTo (edge.scaled hi.storage (lo.factorTo hi)) (lo.factorTo hi * ·) kernel n :=
  mapsTo_map h fun _ hv => Depth.toNat_scaled hdeeper hv

/-- A border in range supplies the same kernel at the deeper depth. -/
theorem IntraEdge.supplies_scaled :
    (edge.scaled hi.storage (lo.factorTo hi)).Supplies kernel n hi.max :=
  supplies_map h (fun _ hv => Depth.toNat_scaled hdeeper hv) fun _ hv =>
    Depth.factorTo_mul_le hdeeper hv

end Scaled

/-- **At every level predictions scale with the depth**: exactly, or but for the cells that are clipped
at the top, or up to half a unit of the shallower depth. -/
theorem predictions_scale_with_depth (processor : Processor) (level : CpuLevel) (lo hi : Depth)
    (hdeeper : lo.bits < hi.bits) (block : BlockSize) (mode : IntraMode) (edge : IntraEdge lo.storage)
    (hblock : (KernelKind.intra .dc).supports block = true)
    (hedge : edge.Supplies (edge.kernelFor mode) block.width lo.max) :
    ∃ kernels low high, Kernels.atLevel processor level = .ok kernels ∧
      kernels.Predicts lo block mode edge low ∧
      kernels.Predicts hi block mode (edge.scaled hi.storage (lo.factorTo hi)) high ∧
      Intra.ScalesBy (lo.factorTo hi) lo.max block.width (edge.kernelFor mode) edge low high := by
  obtain ⟨kernels, hkernels, hselects⟩ := Kernels.atLevel_selects processor level
  refine ⟨kernels, _, _, hkernels, Kernels.predicts_of_supplies hselects rfl hblock hedge,
    Kernels.predicts_map hselects rfl hblock (IntraEdge.supplies_scaled hdeeper hedge), ?_⟩
  exact Intra.scalesBy_of_mapsTo (IntraEdge.mapsTo_scaled hdeeper hedge)
    (Depth.factorTo_mul_max_add_one hdeeper) (Depth.two_dvd_factorTo hdeeper)
    (Dvd.intro _ lo.two_mul_mid)

/-- A border that gets brighter away from a dark corner. -/
def risingBorder : IntraEdge .byte :=
  ⟨0, Array.ofFn fun i : Fin 16 => BitVec.ofNat 8 (16 * i),
    Array.ofFn fun i : Fin 16 => BitVec.ofNat 8 (16 * i), true, true⟩

theorem risingBorder_supplies : risingBorder.Supplies .tm 16 Depth.eight.max where
  above_size := by decide
  left_size := by decide
  above_le := by decide
  left_le := by decide
  corner_le := by decide

/-- At ten bits the plane that tm lays through the border is four times as high, and its top is clipped
three above four times 255. -/
theorem tm_of_risingBorder_scales :
    Depth.eight.bits < Depth.ten.bits ∧ (KernelKind.intra .dc).supports .b16x16 = true ∧
    risingBorder.Supplies .tm 16 Depth.eight.max ∧
    ∃ kernels low high, Kernels.atLevel .full .v3 = .ok kernels ∧
      kernels.Predicts .eight .b16x16 .tm risingBorder low ∧
      kernels.Predicts .ten .b16x16 .tm (risingBorder.scaled .word 4) high ∧
      high 3 5 = 4 * low 3 5 ∧ low 15 15 = 255 ∧ high 15 15 = 1023 := by
  obtain ⟨kernels, low, high, hkernels, hlow, hhigh, hscales⟩ :=
    predictions_scale_with_depth .full .v3 .eight .ten (by decide) .b16x16 .tm risingBorder (by decide)
      risingBorder_supplies
  refine ⟨by decide, by decide, risingBorder_supplies, kernels, low, high, hkernels, hlow, hhigh, ?_⟩
  have hslope := hscales.clipped rfl 3 (by decide) 5 (by decide)
  have htop := hscales.clipped rfl 15 (by decide) 15 (by decide)
  rw [if_neg (by decide)] at hslope
  rw [if_pos (by decide)] at htop
  obtain ⟨hcapped, hover⟩ := htop
  rw [hcapped] at hover
  exact ⟨hslope, hcapped, hover⟩

end PixelKernels
