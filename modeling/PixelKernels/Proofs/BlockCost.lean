/-
  PixelKernels.Proofs.BlockCost
  ─────────────────────────────
  **THE COST OF A BLOCK AS A DOUBLE SUM, AND TWO PROGRAMS THAT COMPUTE IT.**

  `Sad.cost` is the sum of all distances between two matrices of samples, over
  the natural numbers.  No block is so large that it leaves 32 bits, whatever
  its samples are (`cost_lt`).  On planes that hold the block, the portable
  kernels (`sad_of_fits`, `sadAvg_of_fits`) and the reference costs compute
  exactly this number, and none of their checked sums faults.
-/
import Mathlib
import PixelKernels.Conformance.Reference
import PixelKernels.Proofs.Rectangles
import PixelKernels.Proofs.RoundingLaws
import PixelKernels.Proofs.Sequences
import PixelKernels.Sad.Portable

namespace PixelKernels.Sad

open Finset
open Portable (distance)

variable {s : Storage}

/-! ## §1. The cost. -/

/-- Sum of the distances between two matrices, which give the sample in a column of a row. -/
def cost (width height : Nat) (f g : Nat → Nat → Sample s) : Nat :=
  ∑ y ∈ range height, ∑ x ∈ range width, distance (f x y).toNat (g x y).toNat

theorem distance_lt (a b : Sample s) : distance a.toNat b.toNat < 2 ^ 16 := by
  have ha := a.isLt
  have hb := b.isLt
  unfold distance
  cases s <;> simp only [Storage.bits] at ha hb <;> omega

theorem rowSum_le (width : Nat) (f g : Nat → Sample s) :
    ∑ x ∈ range width, distance (f x).toNat (g x).toNat ≤ width * 65535 := by
  have h := sum_le_card_nsmul (range width) (fun x => distance (f x).toNat (g x).toNat) 65535
    fun x _ => Nat.le_of_lt_succ (distance_lt (f x) (g x))
  rwa [card_range, Nat.nsmul_eq_mul] at h

/-- **The cost of a block never leaves 32 bits.** -/
theorem cost_lt {width height : Nat} (hw : width ≤ 64) (hh : height ≤ 64)
    (f g : Nat → Nat → Sample s) : cost width height f g < 2 ^ 32 := by
  -- at most 64 rows of at most 64 distances of at most 65535
  have h := sum_le_card_nsmul (range height)
    (fun y => ∑ x ∈ range width, distance (f x y).toNat (g x y).toNat) (64 * 65535)
    fun y _ => (rowSum_le width (f · y) (g · y)).trans (Nat.mul_le_mul_right _ hw)
  rw [card_range, Nat.nsmul_eq_mul] at h
  calc cost width height f g ≤ height * (64 * 65535) := h
    _ ≤ 64 * (64 * 65535) := Nat.mul_le_mul_right _ hh
    _ < 2 ^ 32 := by decide

/-- Only the samples of the block count. -/
theorem cost_congr {width height : Nat} {f f' g g' : Nat → Nat → Sample s}
    (hf : ∀ x < width, ∀ y < height, f x y = f' x y)
    (hg : ∀ x < width, ∀ y < height, g x y = g' x y) :
    cost width height f g = cost width height f' g' := by
  unfold cost
  refine sum_congr rfl fun y hy => sum_congr rfl fun x hx => ?_
  have hx := mem_range.mp hx
  have hy := mem_range.mp hy
  rw [hf x hx y hy, hg x hx y hy]

/-! ## §2. Averages. -/

/-- Average of two samples, a half rounded up. -/
def mean (a b : Sample s) : Sample s := BitVec.ofNat s.bits ((a.toNat + b.toNat + 1) / 2)

theorem toNat_mean (a b : Sample s) : (mean a b).toNat = (a.toNat + b.toNat + 1) / 2 := by
  have ha := a.isLt
  have hb := b.isLt
  rw [mean, BitVec.toNat_ofNat, Nat.mod_eq_of_lt (by omega)]

theorem mean_comm (a b : Sample s) : mean a b = mean b a := by
  rw [mean, mean, Nat.add_comm a.toNat]

@[simp] theorem mean_self (a : Sample s) : mean a a = a := by
  apply BitVec.eq_of_toNat_eq
  rw [toNat_mean]
  omega

theorem avg2_samples (a b : Sample s) : avg2 a.toNat b.toNat = .ok (mean a b).toNat := by
  have ha := a.isLt
  have hb := b.isLt
  have hbits : 2 ^ s.bits ≤ 2 ^ 16 := by cases s <;> decide
  exact avg2_eq_ok_iff.mpr ⟨by omega, (toNat_mean a b).symm⟩

/-- A packed block as a matrix. -/
def packed (width : Nat) (second : Array (Sample s)) (x y : Nat) : Sample s :=
  second.getD (y * width + x) 0

/-- A row of a packed block ends inside the block. -/
theorem packed_row_le {width height y : Nat} (hy : y < height) :
    y * width + width ≤ width * height := by
  calc y * width + width = width * (y + 1) := by rw [Nat.mul_succ, Nat.mul_comm]
    _ ≤ width * height := Nat.mul_le_mul_left width hy

/-- A row of a packed block that covers it. -/
theorem slice_packed {width height y : Nat} {second : Array (Sample s)}
    (hcover : width * height ≤ second.size) (hy : y < height) :
    slice second (y * width) width = .ok ((List.range width).map fun x => packed width second x y) :=
  slice_eq_map_range ((packed_row_le hy).trans hcover) 0

/-! ## §3. The portable kernels. -/

namespace Portable

theorem rowCost_map_range {width : Nat} (hw : width ≤ 64) (f g : Nat → Sample s) :
    rowCost ((List.range width).map f) ((List.range width).map g)
      = .ok (∑ x ∈ range width, distance (f x).toNat (g x).toNat) := by
  have hlt := rowSum_le width f g
  rw [rowCost, List.zipWith_map, List.zipWith_self,
    sumUInt32_of_lt (by rw [sum_map_range]; omega), sum_map_range]

theorem rowCostAverage_map_range {width : Nat} (hw : width ≤ 64) (f g h : Nat → Sample s) :
    rowCostAverage ((List.range width).map f) ((List.range width).map g) ((List.range width).map h)
      = .ok (∑ x ∈ range width, distance (f x).toNat (mean (g x) (h x)).toNat) := by
  have hlt := rowSum_le width f fun x => mean (g x) (h x)
  have haverage : averageRow ((List.range width).map g) ((List.range width).map h)
      = .ok ((List.range width).map fun x => (mean (g x) (h x)).toNat) := by
    rw [averageRow, List.zip_map', List.mapM_map]
    exact Outcome.mapM_of_forall_ok fun x _ => avg2_samples (g x) (h x)
  rw [rowCostAverage, haverage, Outcome.ok_bind, List.zipWith_map, List.zipWith_self,
    sumUInt32_of_lt (by rw [sum_map_range]; omega), sum_map_range]

/-- Row costs that are sums over rows make up the cost of the block. -/
theorem sumUInt32_rows {width height : Nat} (hw : width ≤ 64) (hh : height ≤ 64)
    (f g : Nat → Nat → Sample s) :
    sumUInt32 ((List.range height).map fun y =>
        ∑ x ∈ range width, distance (f x y).toNat (g x y).toNat)
      = .ok (cost width height f g) := by
  have hlt := cost_lt hw hh f g
  rw [sumUInt32_of_lt (by rw [sum_map_range]; exact hlt), sum_map_range]
  rfl

variable {width height : Nat} {source reference : Plane s}

theorem rowCostAt_of_holds {y : Nat} (hw : width ≤ 64) (hs : source.Holds width height)
    (hr : reference.Holds width height) (hy : y < height) :
    rowCostAt width source reference y
      = .ok (∑ x ∈ range width, distance (source.pixel x y).toNat (reference.pixel x y).toNat) := by
  rw [rowCostAt, Plane.row_of_holds hs hy, Outcome.ok_bind, Plane.row_of_holds hr hy,
    Outcome.ok_bind, rowCost_map_range hw]

/-- **The portable cost of a block is the double sum.** -/
theorem sad_of_fits (hw : width ≤ 64) (hh : height ≤ 64)
    (hs : source.fits width height = .ok true) (hr : reference.fits width height = .ok true) :
    sad width height source reference = .ok (cost width height source.pixel reference.pixel) := by
  have hsource := Plane.holds_of_fits (by omega) (by omega) hs
  have hreference := Plane.holds_of_fits (by omega) (by omega) hr
  rw [sad, Plane.assertFits_of_fits hs, Outcome.ok_bind,
    Plane.assertFits_of_fits hr, Outcome.ok_bind,
    Outcome.mapM_of_forall_ok fun y hy =>
      rowCostAt_of_holds hw hsource hreference (List.mem_range.mp hy),
    Outcome.ok_bind]
  exact sumUInt32_rows hw hh source.pixel reference.pixel

/-- **The portable cost against an average is the double sum against the averaged matrix.** -/
theorem sadAvg_of_fits {second : Array (Sample s)} (hw : width ≤ 64) (hh : height ≤ 64)
    (hs : source.fits width height = .ok true) (hr : reference.fits width height = .ok true)
    (hcover : width * height ≤ second.size) :
    sadAvg width height source reference second
      = .ok (cost width height source.pixel
          fun x y => mean (reference.pixel x y) (packed width second x y)) := by
  have hsource := Plane.holds_of_fits (by omega) (by omega) hs
  have hreference := Plane.holds_of_fits (by omega) (by omega) hr
  rw [sadAvg, Plane.assertFits_of_fits hs, Outcome.ok_bind,
    Plane.assertFits_of_fits hr, Outcome.ok_bind,
    decide_eq_true hcover, Outcome.require_true, Outcome.ok_bind]
  -- row by row, then the sum of the rows
  rw [Outcome.mapM_of_forall_ok (g := fun y => ∑ x ∈ range width,
    distance (source.pixel x y).toNat (mean (reference.pixel x y) (packed width second x y)).toNat)]
  · exact sumUInt32_rows hw hh source.pixel _
  · intro y hy
    have hy := List.mem_range.mp hy
    rw [Plane.row_of_holds hsource hy, Outcome.ok_bind, Plane.row_of_holds hreference hy,
      Outcome.ok_bind, slice_packed hcover hy, Outcome.ok_bind, rowCostAverage_map_range hw]

theorem commonStride_eq_true_iff {n : Nat} {planes : Vector (Plane s) n} :
    commonStride planes = true ↔ ∀ p ∈ planes, ∀ q ∈ planes, p.stride = q.stride := by
  simp only [commonStride, Vector.all_eq_true_iff_forall_mem, beq_iff_eq]

theorem commonStride_eq_false_iff {n : Nat} {planes : Vector (Plane s) n} :
    commonStride planes = false ↔ ∃ p ∈ planes, ∃ q ∈ planes, p.stride ≠ q.stride := by
  rw [← Bool.not_eq_true, commonStride_eq_true_iff]
  push Not
  exact Iff.rfl

/-- Against four references of one stride, each element is the cost against its reference. -/
theorem sadX4_of_fits {references : Vector (Plane s) 4} (hw : width ≤ 64) (hh : height ≤ 64)
    (hs : source.fits width height = .ok true)
    (hr : ∀ reference ∈ references, reference.fits width height = .ok true)
    (hstride : commonStride references = true) :
    sadX4 width height source references
      = .ok (references.map fun reference => cost width height source.pixel reference.pixel) := by
  rw [sadX4, hstride, Outcome.require_true, Outcome.ok_bind]
  exact Outcome.mapM_vector_of_forall_ok fun reference hin => sad_of_fits hw hh hs (hr reference hin)

end Portable

/-! ## §4. The reference costs. -/

theorem max_sub_min_eq_distance (a b : Nat) : max a b - min a b = distance a b := by
  unfold distance
  omega

theorem sum_cells (width height : Nat) (d : Nat → Nat → Nat) :
    ((Reference.cells width height).map fun c => d c.1 c.2).sum
      = ∑ y ∈ range height, ∑ x ∈ range width, d x y := by
  rw [Reference.cells, sum_map_flatMap]
  simp only [List.map_map, Function.comp_def, sum_map_range]

theorem mem_cells {width height x y : Nat} :
    (x, y) ∈ Reference.cells width height ↔ x < width ∧ y < height := by
  simp [Reference.cells, and_comm]

/-- A checked sum over the cells that stays below 2 ^ 32 is the double sum. -/
theorem foldlM_cells {width height : Nat} {step : Nat → Nat × Nat → Outcome Nat}
    {f g : Nat → Nat → Sample s} (hw : width ≤ 64) (hh : height ≤ 64)
    (hstep : ∀ x < width, ∀ y < height, ∀ total,
      step total (x, y) = asUInt32 (total + distance (f x y).toNat (g x y).toNat)) :
    (Reference.cells width height).foldlM step 0 = .ok (cost width height f g) := by
  have hlt := cost_lt hw hh f g
  -- every step is a checked addition, so the loop is a checked sum over the cells
  rw [Outcome.foldlM_congr (g := fun total c =>
      asUInt32 (total + distance (f c.1 c.2).toNat (g c.1 c.2).toNat))]
  · have hsum := sum_cells width height fun x y => distance (f x y).toNat (g x y).toNat
    rw [← List.foldlM_map (g := fun total v => asUInt32 (total + v))]
    exact (sumUInt32_of_lt (by rw [hsum]; exact hlt)).trans (congrArg Except.ok hsum)
  · rintro ⟨x, y⟩ hc total
    obtain ⟨hx, hy⟩ := mem_cells.mp hc
    exact hstep x hx y hy total

/-- **The reference cost of a block is the double sum.** -/
theorem reference_sad_of_fits {block : BlockSize} {source reference : Plane s}
    (hs : source.fits block.width block.height = .ok true)
    (hr : reference.fits block.width block.height = .ok true) :
    Reference.sad block source reference
      = .ok (cost block.width block.height source.pixel reference.pixel) := by
  have hw := block.width_le
  have hh := block.height_le
  have hsource := Plane.holds_of_fits (by omega) (by omega) hs
  have hreference := Plane.holds_of_fits (by omega) (by omega) hr
  apply foldlM_cells hw hh
  intro x hx y hy total
  show (source.sampleAt x y >>= fun a => reference.sampleAt x y >>= fun b =>
    asUInt32 (total + (max a b - min a b))) = _
  rw [Plane.sampleAt_of_holds hsource hx hy, Outcome.ok_bind,
    Plane.sampleAt_of_holds hreference hx hy, Outcome.ok_bind, max_sub_min_eq_distance]

/-- **The reference cost against an average is the double sum against the averaged matrix.** -/
theorem reference_sadAvg_of_fits {block : BlockSize} {source reference : Plane s}
    {second : Array (Sample s)} (hs : source.fits block.width block.height = .ok true)
    (hr : reference.fits block.width block.height = .ok true) (hcover : block.area ≤ second.size) :
    Reference.sadAvg block source reference second
      = .ok (cost block.width block.height source.pixel
          fun x y => mean (reference.pixel x y) (packed block.width second x y)) := by
  have hw := block.width_le
  have hh := block.height_le
  have hsource := Plane.holds_of_fits (by omega) (by omega) hs
  have hreference := Plane.holds_of_fits (by omega) (by omega) hr
  apply foldlM_cells hw hh
  intro x hx y hy total
  have hrow : y * block.width + block.width ≤ block.area := packed_row_le hy
  have hsecond : elementAt second (y * block.width + x) = .ok (packed block.width second x y) :=
    elementAt_eq_getD (by omega) 0
  have ha := (reference.pixel x y).isLt
  have hb := (packed block.width second x y).isLt
  have hbits : 2 ^ s.bits ≤ 2 ^ 16 := by cases s <;> decide
  show (reference.sampleAt x y >>= fun r => elementAt second (y * block.width + x) >>= fun p =>
    asUInt32 (r + p.toNat) >>= fun sum => asUInt32 (sum + 1) >>= fun sum =>
    source.sampleAt x y >>= fun a => asUInt32 (total + (max a (sum / 2) - min a (sum / 2)))) = _
  rw [Plane.sampleAt_of_holds hreference hx hy, Outcome.ok_bind, hsecond, Outcome.ok_bind,
    asUInt32_of_lt (by omega), Outcome.ok_bind, asUInt32_of_lt (by omega), Outcome.ok_bind,
    Plane.sampleAt_of_holds hsource hx hy, Outcome.ok_bind, max_sub_min_eq_distance, toNat_mean]

end PixelKernels.Sad
