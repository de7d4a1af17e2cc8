/-
  PixelKernels.Proofs.RoundedMeans
  ────────────────────────────────
  **WHAT ALL KERNELS BUT TWO PREDICT: ROUNDED MEANS OF BORDER SAMPLES.**

  A cell is known by its taps, the border samples that it is the mean of, each
  listed as often as it counts:

      dc…     the samples of one side, or of both
      v, h    one sample
      d45     x, y, y, z along the row above, and its last sample past the end
      d117    x, y or x, y, y, z along the line through the corner
      d135    x, y, y, z along that line

  Their sum is the weighted sum of the cell and their number its divisor
  (`Intra.value_eq_roundedMean`).  The other two are dc_128, which reads
  nothing, and tm, which adds, subtracts and clips.

  `IntraEdge.map` changes every sample of a border, and possibly its cell.
  Where a kernel reads, the taps are changed with the samples
  (`IntraEdge.MapsTo.taps`): the one walk over the kernels that the relations
  between two borders need.  Borders with the same numbers there, whatever
  their cells, give the same cells (`Intra.value_of_mapsTo_id`).
-/
import PixelKernels.Proofs.PredictedCells
import PixelKernels.Proofs.Sequences

namespace PixelKernels

open Finset

variable {s t : Storage}

/-! ## §1. Taps. -/

/-- Whether the kernel's cells are rounded means of border samples. -/
def IntraKernel.averages : IntraKernel → Bool
  | .dc128 | .tm => false
  | _ => true

namespace Intra

/-- Three taps with a double centre. -/
def triple (x y z : Nat) : List Nat := [x, y, y, z]

/-- The border samples that a cell is the rounded mean of, each as often as it counts. -/
def taps (kernel : IntraKernel) (n : Nat) (edge : IntraEdge s) (r c : Nat) : List Nat :=
  match kernel with
  | .dc => (List.range n).map edge.aboveAt ++ (List.range n).map edge.leftAt
  | .dcTop => (List.range n).map edge.aboveAt
  | .dcLeft => (List.range n).map edge.leftAt
  | .v => [edge.aboveAt c]
  | .h => [edge.leftAt r]
  | .d45 =>
      if r + c + 2 < 2 * n then
        triple (edge.aboveAt (r + c)) (edge.aboveAt (r + c + 1)) (edge.aboveAt (r + c + 2))
      else [edge.aboveAt (2 * n - 1)]
  | .d117 =>
      if r / 2 ≤ c then
        let x : Int := c - r / 2
        if r % 2 = 0 then [edge.line x, edge.line (x + 1)]
        else triple (edge.line (x - 1)) (edge.line x) (edge.line (x + 1))
      else
        let y : Int := r - 2 * c
        triple (edge.line (2 - y)) (edge.line (1 - y)) (edge.line (-y))
  | .d135 =>
      let d : Int := c - r
      triple (edge.line (d - 1)) (edge.line d) (edge.line (d + 1))
  | .dc128 | .tm => []

/-- The mean of some numbers, a half rounded up. -/
def roundedMean (numbers : List Nat) : Nat := (numbers.sum + numbers.length / 2) / numbers.length

@[simp] theorem roundedMean_singleton (x : Nat) : roundedMean [x] = x := by
  simp [roundedMean]

theorem roundedMean_pair (x y : Nat) : roundedMean [x, y] = average2 x y := by
  simp [roundedMean, average2]

theorem roundedMean_triple (x y z : Nat) : roundedMean (triple x y z) = average3 x y z := by
  simp only [roundedMean, triple, average3, List.sum_cons, List.sum_nil, List.length_cons,
    List.length_nil]
  congr 1
  omega

/-- **A cell is the rounded mean of its taps.** -/
theorem value_eq_roundedMean {kernel : IntraKernel} (h : kernel.averages = true) (n : Nat)
    (edge : IntraEdge s) (max r c : Nat) :
    value kernel n edge max r c = roundedMean (taps kernel n edge r c) := by
  cases kernel with
  | dc =>
    have hhalf : (n + n) / 2 = n := by omega
    simp only [value, taps, roundedMean, List.sum_append, sum_map_range, List.length_append,
      List.length_map, List.length_range, hhalf, Nat.two_mul]
  | dcTop => simp only [value, taps, roundedMean, sum_map_range, List.length_map, List.length_range]
  | dcLeft => simp only [value, taps, roundedMean, sum_map_range, List.length_map, List.length_range]
  | dc128 => cases h
  | tm => cases h
  | v => exact (roundedMean_singleton _).symm
  | h => exact (roundedMean_singleton _).symm
  -- the slanted kernels average two or three neighbours, or copy one
  | d45 =>
    simp only [value, taps]
    split
    · exact (roundedMean_triple _ _ _).symm
    · exact (roundedMean_singleton _).symm
  | d117 =>
    simp only [value, taps]
    split
    · split
      · exact (roundedMean_pair _ _).symm
      · exact (roundedMean_triple _ _ _).symm
    · exact (roundedMean_triple _ _ _).symm
  | d135 => exact (roundedMean_triple _ _ _).symm

/-- A cell is a mean of at least one sample. -/
theorem length_taps_pos {kernel : IntraKernel} (h : kernel.averages = true) {n : Nat} (hn : 0 < n)
    (edge : IntraEdge s) (r c : Nat) : 0 < (taps kernel n edge r c).length := by
  cases kernel with
  | dc128 => cases h
  | tm => cases h
  | d45 =>
    simp only [taps, triple]
    split <;> simp
  | d117 =>
    simp only [taps, triple]
    split
    · split <;> simp
    · simp
  | _ => simp [taps, triple, hn]

end Intra

/-! ## §2. Borders changed sample by sample. -/

/-- The border with every sample changed, possibly for one of another cell. -/
def IntraEdge.map (f : Sample s → Sample t) (edge : IntraEdge s) : IntraEdge t :=
  ⟨f edge.topLeft, edge.above.map f, edge.left.map f, edge.haveAbove, edge.haveLeft⟩

/-- Where a kernel reads at side `n`, the second border has what `g` makes of the first. -/
structure IntraEdge.MapsTo (edge : IntraEdge s) (image : IntraEdge t) (g : Nat → Nat)
    (kernel : IntraKernel) (n : Nat) : Prop where
  above : ∀ i < kernel.aboveLength n, image.aboveAt i = g (edge.aboveAt i)
  left : ∀ i < kernel.leftLength n, image.leftAt i = g (edge.leftAt i)
  corner : kernel.readsTopLeft = true → image.topLeft.toNat = g edge.topLeft.toNat

namespace IntraEdge

variable {edge : IntraEdge s} {image : IntraEdge t} {g : Nat → Nat} {kernel : IntraKernel}
  {n max : Nat}

/-- Which kernel is chosen does not depend on the samples. -/
@[simp] theorem kernelFor_map (f : Sample s → Sample t) (edge : IntraEdge s) (mode : IntraMode) :
    (edge.map f).kernelFor mode = edge.kernelFor mode := by
  cases mode <;> rfl

section MapsTo

variable (h : edge.MapsTo image g kernel n)
include h

/-- On the stretch that the slanted kernels read, the line is changed as a whole. -/
theorem MapsTo.line (hcorner : kernel.readsTopLeft = true) {i : Int}
    (hlow : -(kernel.leftLength n : Int) ≤ i) (hhigh : i ≤ kernel.aboveLength n) :
    image.line i = g (edge.line i) := by
  unfold IntraEdge.line
  split
  · exact h.above _ (by omega)
  · split
    · exact h.corner hcorner
    · exact h.left _ (by omega)

/-- **The taps of a cell are changed with the samples of the border.** -/
theorem MapsTo.taps {r c : Nat} (hr : r < n) (hc : c < n) :
    Intra.taps kernel n image r c = (Intra.taps kernel n edge r c).map g := by
  cases kernel with
  | dc =>
    have habove : (List.range n).map image.aboveAt = (List.range n).map (g ∘ edge.aboveAt) :=
      List.map_congr_left fun i hi => h.above i (List.mem_range.mp hi)
    have hleft : (List.range n).map image.leftAt = (List.range n).map (g ∘ edge.leftAt) :=
      List.map_congr_left fun i hi => h.left i (List.mem_range.mp hi)
    simp only [Intra.taps, List.map_append, List.map_map, habove, hleft]
  | dcTop =>
    simp only [Intra.taps, List.map_map]
    exact List.map_congr_left fun i hi => h.above i (List.mem_range.mp hi)
  | dcLeft =>
    simp only [Intra.taps, List.map_map]
    exact List.map_congr_left fun i hi => h.left i (List.mem_range.mp hi)
  | dc128 => rfl
  | tm => rfl
  | v => exact congrArg (fun x => [x]) (h.above c hc)
  | h => exact congrArg (fun x => [x]) (h.left r hr)
  | d45 =>
    have hread : ∀ i < 2 * n, image.aboveAt i = g (edge.aboveAt i) := fun i hi => h.above i hi
    simp only [Intra.taps]
    split
    · rw [hread _ (by omega), hread _ (by omega), hread _ (by omega)]
      rfl
    · rw [hread _ (by omega)]
      rfl
  | d117 =>
    have hread : ∀ i : Int, -(n : Int) ≤ i → i ≤ n → image.line i = g (edge.line i) :=
      fun i hlow hhigh => h.line rfl hlow hhigh
    simp only [Intra.taps]
    split
    · split
      · rw [hread _ (by omega) (by omega), hread _ (by omega) (by omega)]
        rfl
      · rw [hread _ (by omega) (by omega), hread _ (by omega) (by omega),
          hread _ (by omega) (by omega)]
        rfl
    · rw [hread _ (by omega) (by omega), hread _ (by omega) (by omega), hread _ (by omega) (by omega)]
      rfl
  | d135 =>
    have hread : ∀ i : Int, -(n : Int) ≤ i → i ≤ n → image.line i = g (edge.line i) :=
      fun i hlow hhigh => h.line rfl hlow hhigh
    simp only [Intra.taps]
    rw [hread _ (by omega) (by omega), hread _ (by omega) (by omega), hread _ (by omega) (by omega)]
    rfl

end MapsTo

section Map

/-- A sample in range is changed as its number is. -/
theorem toNat_getD_map {f : Sample s → Sample t}
    (hf : ∀ v : Sample s, v.toNat ≤ max → (f v).toNat = g v.toNat) {samples : Array (Sample s)}
    {i : Nat} (hi : i < samples.size) (hle : (samples.getD i 0).toNat ≤ max) :
    ((samples.map f).getD i 0).toNat = g (samples.getD i 0).toNat := by
  rw [Array.getD_eq_getD_getElem?, Array.getElem?_eq_getElem hi, Option.getD_some] at hle
  rw [Array.getD_eq_getD_getElem?, Array.getD_eq_getD_getElem?, Array.getElem?_map,
    Array.getElem?_eq_getElem hi, Option.map_some, Option.getD_some, Option.getD_some]
  exact hf _ hle

variable {f : Sample s → Sample t} (h : edge.Supplies kernel n max)
  (hf : ∀ v : Sample s, v.toNat ≤ max → (f v).toNat = g v.toNat)
include h hf

/-- A border that supplies a kernel is changed as its samples in range are. -/
theorem mapsTo_map : edge.MapsTo (edge.map f) g kernel n where
  above := by
    intro i hi
    have hsize := h.above_size
    exact toNat_getD_map hf (by omega) (h.above_le i hi)
  left := by
    intro i hi
    have hsize := h.left_size
    exact toNat_getD_map hf (by omega) (h.left_le i hi)
  corner := fun hcorner => hf _ (h.corner_le hcorner)

/-- **It supplies the kernel again, in any range that has room for the changed samples.** -/
theorem supplies_map {top : Nat} (hg : ∀ v ≤ max, g v ≤ top) :
    (edge.map f).Supplies kernel n top where
  above_size := by
    rw [map, Array.size_map]
    exact h.above_size
  left_size := by
    rw [map, Array.size_map]
    exact h.left_size
  above_le := by
    intro i hi
    rw [(mapsTo_map h hf).above i hi]
    exact hg _ (h.above_le i hi)
  left_le := by
    intro i hi
    rw [(mapsTo_map h hf).left i hi]
    exact hg _ (h.left_le i hi)
  corner_le := by
    intro hcorner
    rw [(mapsTo_map h hf).corner hcorner]
    exact hg _ (h.corner_le hcorner)

end Map

end IntraEdge

/-! ## §3. Borders with the same numbers. -/

namespace Intra

variable {kernel : IntraKernel} {n max top r c : Nat} {edge : IntraEdge s} {image : IntraEdge t}

/-- **A rounded mean is a matter of its numbers**, and not of the range that they are in. -/
theorem value_of_averages (h : edge.MapsTo image id kernel n) (havg : kernel.averages = true)
    (hr : r < n) (hc : c < n) : value kernel n image top r c = value kernel n edge max r c := by
  rw [value_eq_roundedMean havg, value_eq_roundedMean havg, h.taps hr hc, List.map_id]

/-- **Clipping at the higher maximum and then at the lower one is clipping at the lower one.** -/
theorem value_tm_of_le (h : edge.MapsTo image id .tm n) (hle : max ≤ top) (hr : r < n)
    (hc : c < n) : value .tm n edge max r c = min (value .tm n image top r c) max := by
  simp only [value, h.above c hc, h.left r hr, h.corner rfl, id]
  omega

/-- In one range every kernel predicts the same cells from the same numbers. -/
theorem value_of_mapsTo_id (h : edge.MapsTo image id kernel n) (hr : r < n) (hc : c < n) :
    value kernel n image max r c = value kernel n edge max r c := by
  by_cases havg : kernel.averages = true
  · exact value_of_averages h havg hr hc
  · cases kernel with
    | dc128 => rfl
    | tm => exact ((value_tm_of_le h (Nat.le_refl max) hr hc).trans
        (Nat.min_eq_left (Nat.min_le_right _ _))).symm
    | _ => exact absurd rfl havg

end Intra

end PixelKernels
