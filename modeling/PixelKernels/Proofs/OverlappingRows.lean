/-
  PixelKernels.Proofs.OverlappingRows
  ───────────────────────────────────
  **A PREDICTION WRITES ALL OF ITS BLOCK OR NOTHING, AND THE LOWEST ROW WINS.**

  A destination may have any stride, so several rows of a block can cover the
  same position of its buffer.  `Plane.coveringRows` are the rows that do.

    • Writing a block leaves at a position what the last of its covering rows
      has there, and leaves positions alone that no row covers
      (`Plane.getElem?_paint_of_isGreatest`, `Plane.getElem?_paint_of_uncovered`).
    • The same prediction into a buffer of its own writes the same block, row
      after row (`Kernels.predictAlone_eq`, `Kernels.getElem?_paint_freshBlock`).
    • So a prediction that succeeds is known position by position from the
      packed block (`Kernels.fullyWritten_of_ok`), and one that fails has
      written nothing.
-/
import PixelKernels.Proofs.PackedBlocks
import PixelKernels.Proofs.Refusals

namespace PixelKernels

variable {s : Storage} {depth : Depth} {block : BlockSize}

/-! ## §1. The rows that cover a position. -/

namespace Plane

/-- Those of the first `rows` rows whose first `width` samples reach position `i`. -/
def coveringRows (p : Plane s) (width rows i : Nat) : Finset Nat :=
  (Finset.range rows).filter fun y => p.index 0 y ≤ i ∧ i < p.index 0 y + width

variable {p : Plane s} {width height i y : Nat}

theorem mem_coveringRows {rows : Nat} :
    y ∈ p.coveringRows width rows i ↔ y < rows ∧ p.index 0 y ≤ i ∧ i < p.index 0 y + width := by
  rw [coveringRows, Finset.mem_filter, Finset.mem_range]

/-- A position that is covered has a last row that covers it. -/
theorem coveringRows_cases (p : Plane s) (width rows i : Nat) :
    (∃ y, IsGreatest (p.coveringRows width rows i : Set Nat) y) ∨
      p.coveringRows width rows i = ∅ := by
  obtain hnone | hsome := (p.coveringRows width rows i).eq_empty_or_nonempty
  · exact .inr hnone
  · exact .inl ⟨_, Finset.isGreatest_max' _ hsome⟩

section Written

variable (h : p.Holds width height) (hbase : p.base < 1 <<< 64) {written : Block s}
  (hheight : written.length = height) (hrows : ∀ row ∈ written, row.length = width)
include h hbase hheight hrows

/-- **The last row that covers a position decides what it holds.** -/
theorem getElem?_paint_of_isGreatest (hlast : IsGreatest (p.coveringRows width height i : Set Nat) y)
    (hy : y < written.length) :
    (p.paint written).buffer[i]? = written[y][(i - p.index 0 y).toNat]? := by
  obtain ⟨hyheight, hlow, hhigh⟩ := mem_coveringRows.mp hlast.1
  have hfirst := position_eq_index (x := 0) h hbase hyheight
  have hat := position_add p (i - p.index 0 y).toNat y
  have hread := getElem?_paintFrom_of_last h (x := (i - p.index 0 y).toNat) (y := 0) (k := y)
    (by omega) (rfl : p.data.size = p.data.size) (by omega) hrows hy
  rw [Nat.zero_add, show (p.position (i - p.index 0 y).toNat y).toNat = i by omega] at hread
  refine hread fun r hr hrheight => ?_
  -- a later row that reached the position would be greater
  by_contra hcovered
  have hrfirst := position_eq_index (x := 0) h hbase hrheight
  have hgreater := hlast.2 (mem_coveringRows.mpr ⟨hrheight, by omega, by omega⟩)
  omega

/-- A position that no row covers keeps its sample. -/
theorem getElem?_paint_of_uncovered (hnone : p.coveringRows width height i = ∅) :
    (p.paint written).buffer[i]? = p.data[i]? := by
  refine getElem?_paintFrom_of_outside h rfl (by omega) hrows fun r _ hr => ?_
  by_contra hcovered
  have hrfirst := position_eq_index (x := 0) h hbase hr
  have hmem : r ∈ p.coveringRows width height i :=
    mem_coveringRows.mpr ⟨hr, by omega, by omega⟩
  rw [hnone] at hmem
  simp at hmem

end Written

/-- A block of side `n` has been written in full: with the packed block at hand, each sample is the one
that the last of its covering rows has there, or the old one where there is no such row. -/
structure FullyWritten (p : Plane s) (n : Nat) (packed written : Array (Sample s)) : Prop where
  packed_size : packed.size = n * n
  size : written.size = p.data.size
  samples : ∀ i < p.data.size,
    (∃ y, IsGreatest (p.coveringRows n n i : Set Nat) y ∧
      written[i]? = packed[n * y + (i - p.index 0 y).toNat]?) ∨
    (p.coveringRows n n i = ∅ ∧ written[i]? = p.data[i]?)

/-- Writing a block is writing it in full. -/
theorem fullyWritten_paint {n : Nat} (h : p.Holds n n) (hbase : p.base < 1 <<< 64)
    {block : Block s} (hheight : block.length = n) (hrows : ∀ row ∈ block, row.length = n)
    {packed : Array (Sample s)} (hsize : packed.size = n * n)
    (hpacked : ∀ x < n, ∀ y, (hy : y < block.length) → packed[n * y + x]? = block[y][x]?) :
    p.FullyWritten n packed (p.paint block).buffer := by
  refine ⟨hsize, (paint_of_holds h hheight hrows).2, ?_⟩
  intro i _
  obtain ⟨y, hlast⟩ | hnone := coveringRows_cases p n n i
  · refine .inl ⟨y, hlast, ?_⟩
    obtain ⟨hy, hlow, hhigh⟩ := mem_coveringRows.mp hlast.1
    rw [getElem?_paint_of_isGreatest h hbase hheight hrows hlast (by omega),
      hpacked _ (by omega) y (by omega)]
  · exact .inr ⟨hnone, getElem?_paint_of_uncovered h hbase hheight hrows hnone⟩

end Plane

/-! ## §2. The same prediction on its own. -/

namespace Kernels

theorem freshBlock_eq (s : Storage) (block : BlockSize) :
    freshBlock s block = Plane.contiguous (Array.replicate block.area 0) block.width :=
  (Plane.contiguous_eq (by have := block.width_le; omega)).symm

theorem fits_freshBlock (s : Storage) (block : BlockSize) :
    (freshBlock s block).fits block.width block.height = .ok true := by
  rw [freshBlock_eq]
  refine Plane.fits_contiguous block.width_le block.height_le block.height_pos ?_
  rw [Array.size_replicate]
  exact Nat.le_refl _

/-- A block that is written into a buffer of its own lies there row after row. -/
theorem getElem?_paint_freshBlock {written : Block s} (hheight : written.length = block.height)
    (hrows : ∀ row ∈ written, row.length = block.width) {x y : Nat} (hx : x < block.width)
    (hy : y < written.length) :
    ((freshBlock s block).paint written).buffer[block.width * y + x]? = written[y][x]? := by
  have hholds := Plane.holds_of_fits (by have := block.width_le; omega)
    (by have := block.height_le; omega) (fits_freshBlock s block)
  have hapart : block.width ≤ (freshBlock s block).stride.natAbs := Nat.le_refl _
  have hposition : (freshBlock s block).position x y = (block.width * y + x : Nat) := by
    rw [freshBlock_eq, Plane.position_contiguous block.width_le, Nat.mul_comm]
  have hkept : (freshBlock s block).data.size = (freshBlock s block).data.size := rfl
  have hread := Plane.getElem?_paintFrom_of_apart hholds hapart hx (y := 0) (k := y) hkept
    (by omega) hrows hy
  rw [Nat.zero_add, hposition, Int.toNat_natCast] at hread
  exact hread

variable {kernels : Kernels} {processor : Processor} (h : kernels.Selects processor)
  (hdepth : depth.storage = s)
include h hdepth

/-- A prediction that succeeded passed its checks, and is then its predicted block, written. -/
theorem predictIntra_of_ok {mode : IntraMode} {destination : Plane s} {edge : IntraEdge s}
    (hok : (kernels.predictIntra depth block mode destination edge).outcome = .ok ()) :
    checkPrediction depth block mode destination edge = .ok () ∧
      kernels.predictIntra depth block mode destination edge
        = destination.paint (Intra.predicted (edge.kernelFor mode) block.width edge depth.max) := by
  rw [predictIntra_eq h hdepth] at hok ⊢
  cases hchecks : checkPrediction depth block mode destination edge with
  | error fault =>
    rw [hchecks] at hok
    cases hok
  | ok _ => exact ⟨rfl, rfl⟩

/-- **What a prediction writes elsewhere it writes into a buffer of its own.** -/
theorem predictAlone_eq {mode : IntraMode} {destination : Plane s} {edge : IntraEdge s}
    (hchecks : checkPrediction depth block mode destination edge = .ok ()) :
    kernels.predictAlone depth block mode edge
      = (freshBlock s block).paint
          (Intra.predicted (edge.kernelFor mode) block.width edge depth.max) := by
  obtain ⟨hblock, -, hsupplies⟩ := admits_of_checkPrediction hchecks
  show kernels.predictIntra depth block mode (freshBlock s block) edge = _
  rw [predictIntra_eq h hdepth, checkPrediction_of_supplies hblock hsupplies,
    fits_freshBlock s block]
  rfl

/-- A prediction that succeeds has written its block in full. -/
theorem fullyWritten_of_ok {mode : IntraMode} {destination : Plane s} {edge : IntraEdge s}
    (hbase : destination.base < 1 <<< 64)
    (hok : (kernels.predictIntra depth block mode destination edge).outcome = .ok ()) :
    (kernels.predictAlone depth block mode edge).outcome = .ok () ∧
      destination.FullyWritten block.width (kernels.predictAlone depth block mode edge).buffer
        (kernels.predictIntra depth block mode destination edge).buffer := by
  obtain ⟨hchecks, hpaint⟩ := predictIntra_of_ok h hdepth hok
  obtain ⟨hblock, hfits, -⟩ := admits_of_checkPrediction hchecks
  obtain ⟨hsquare, -, hside⟩ := KernelKind.intra_supports hblock
  have hwidth : block.width < 2 ^ 63 := by omega
  have hroom : (freshBlock s block).fits block.width block.width = .ok true := by
    rw [← fits_freshBlock s block, hsquare]
  obtain ⟨houtcome, hsize⟩ :=
    Plane.paint_predicted_of_fits (edge.kernelFor mode) edge depth.max hwidth hroom
  rw [predictAlone_eq h hdepth hchecks, hpaint]
  refine ⟨houtcome, ?_⟩
  refine Plane.fullyWritten_paint (Plane.holds_of_fits hwidth hwidth hfits) hbase
    Intra.length_predicted (fun _ hrow => Intra.length_of_mem_predicted hrow) ?_ ?_
  · rw [hsize, freshBlock, Array.size_replicate, BlockSize.area, hsquare]
  · intro x hx y hy
    exact getElem?_paint_freshBlock (Intra.length_predicted.trans hsquare.symm)
      (fun _ hrow => Intra.length_of_mem_predicted hrow) hx hy

end Kernels

/-! ## §3. Any level. -/

/-- A prediction either fails and changes nothing, or succeeds, into a buffer of its own as well, and
has written its block in full. -/
structure Kernels.WritesAllOrNothing (kernels : Kernels) (depth : Depth) (block : BlockSize)
    (mode : IntraMode) (destination : Plane s) (edge : IntraEdge s) : Prop where
  nothing : ∀ fault, (kernels.predictIntra depth block mode destination edge).outcome = .error fault →
    (kernels.predictIntra depth block mode destination edge).buffer = destination.data
  all : (kernels.predictIntra depth block mode destination edge).outcome = .ok () →
    (kernels.predictAlone depth block mode edge).outcome = .ok () ∧
      destination.FullyWritten block.width (kernels.predictAlone depth block mode edge).buffer
        (kernels.predictIntra depth block mode destination edge).buffer

/-- **At every level a prediction writes all of its block or nothing, and where rows overlap the
lowest one stays.** -/
theorem predictions_write_all_or_nothing (processor : Processor) (level : CpuLevel) (depth : Depth)
    (block : BlockSize) (mode : IntraMode) (destination : Plane s) (edge : IntraEdge s)
    (hbase : destination.base < 1 <<< 64) :
    ∃ kernels, Kernels.atLevel processor level = .ok kernels ∧
      kernels.WritesAllOrNothing depth block mode destination edge := by
  obtain ⟨kernels, hkernels, hselects⟩ := Kernels.atLevel_selects processor level
  refine ⟨kernels, hkernels, fun _ => Kernels.buffer_predictIntra_of_error hselects, ?_⟩
  intro hok
  have hdepth : depth.storage = s := by
    by_contra hne
    rw [Kernels.predictIntra_of_ne kernels hne] at hok
    cases hok
  exact Kernels.fullyWritten_of_ok hselects hdepth hbase hok

/-- Four rows of four samples, each three samples before the one above it. -/
def climbingBlock : Plane .byte := ⟨Array.replicate 20 9, 12, -3⟩

/-- A column of four samples to the left. -/
def countingColumn : IntraEdge .byte := ⟨0, #[], #[1, 2, 3, 4], false, true⟩

/-- Neighbouring rows share one position each, and the lower row has it. -/
theorem prediction_of_climbingBlock :
    climbingBlock.base < 1 <<< 64 ∧
    ∃ kernels, Kernels.atLevel .full .v3 = .ok kernels ∧
      kernels.WritesAllOrNothing .eight .b4x4 .h climbingBlock countingColumn ∧
      (kernels.predictIntra .eight .b4x4 .h climbingBlock countingColumn).outcome = .ok () ∧
      (kernels.predictIntra .eight .b4x4 .h climbingBlock countingColumn).buffer
        = #[9, 9, 9, 4, 4, 4, 4, 3, 3, 3, 2, 2, 2, 1, 1, 1, 9, 9, 9, 9] := by
  obtain ⟨kernels, hkernels, hwrites⟩ := predictions_write_all_or_nothing .full .v3 .eight .b4x4 .h
    climbingBlock countingColumn (by decide)
  have hselects : kernels.Selects _ := Kernels.selects_of_atLevel hkernels
  have hstored : Depth.eight.storage = .byte := rfl
  refine ⟨by decide, kernels, hkernels, hwrites, ?_⟩
  rw [Kernels.predictIntra_eq hselects hstored]
  decide +kernel

end PixelKernels
