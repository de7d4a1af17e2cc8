/-
  PixelKernels.Proofs.PredictorConformance
  ────────────────────────────────────────
  **EVERY PREDICTOR THAT COMES WITH THE LIBRARY WRITES THE REFERENCE BLOCK.**

  The portable loops, the wide registers and the reference's rays all come to
  the same closed form, so the predictors write what the reference predicts.
  `WritesCells` says what that means for a destination: the rows that are
  written are the cells in raster order, and unless they overlap each other
  the destination reads them back.
-/
import PixelKernels.Proofs.EntryPoints
import PixelKernels.Proofs.ReferencePrediction
import PixelKernels.Proofs.WrittenBlocks

namespace PixelKernels

variable {s : Storage}

/-! ## §1. What a predictor leaves in a destination. -/

/-- The samples of a rectangle, in raster order. -/
def Plane.readBlock (plane : Plane s) (width height : Nat) : Outcome (List Nat) :=
  (Reference.cells width height).mapM fun (x, y) => plane.sampleAt x y

/-- On every destination that holds the block, a predictor succeeds and writes rows that are these
cells in raster order; a destination whose rows stay apart reads them back. -/
structure WritesCells (run : IntraFn s) (n : Nat) (edge : IntraEdge s) (max : Nat)
    (cells : List Nat) : Prop where
  rows : ∃ rows : Block s, rows.flatten.map BitVec.toNat = cells ∧ rows.length = n ∧
    (∀ row ∈ rows, row.length = n) ∧
      ∀ destination : Plane s, destination.fits n n = .ok true →
        run destination edge max = destination.paint rows
  succeeds : ∀ destination : Plane s, destination.fits n n = .ok true →
    (run destination edge max).outcome = .ok ()
  readBack : ∀ destination : Plane s, destination.fits n n = .ok true →
    n ≤ destination.stride.natAbs →
      ({ destination with data := (run destination edge max).buffer } : Plane s).readBlock n n
        = .ok cells

/-! ## §2. Writing a predicted block. -/

namespace Intra

variable {kernel : IntraKernel} {n max : Nat} {edge : IntraEdge s}

/-- **A destination whose rows stay apart reads back the predicted cells.** -/
theorem readBlock_paint_predicted {destination : Plane s} (hside : IsSide n) (hmax : max ∈ s.maxima)
    (h : edge.Supplies kernel n max) (hfits : destination.fits n n = .ok true)
    (hstride : n ≤ destination.stride.natAbs) :
    ({ destination with data := (destination.paint (predicted kernel n edge max)).buffer } :
        Plane s).readBlock n n
      = .ok ((Reference.cells n n).map fun c => value kernel n edge max c.2 c.1) := by
  have hn := hside.le
  have hholds := Plane.holds_of_fits (by omega) (by omega) hfits
  have hrows : ∀ row ∈ predicted kernel n edge max, row.length = n :=
    fun row hrow => length_of_mem_predicted hrow
  have hsize := (Plane.paint_of_holds hholds length_predicted hrows).2
  apply Outcome.mapM_of_forall_ok
  rintro ⟨c, r⟩ hin
  obtain ⟨hc, hr⟩ := Sad.mem_cells.mp hin
  have hr' : r < (predicted kernel n edge max).length := by rw [length_predicted]; exact hr
  show Plane.sampleAt _ c r = _
  rw [Plane.sampleAt_of_holds (hholds.with_data hsize) hc hr,
    Plane.pixel_paint hholds hstride length_predicted hrows hc hr', getElem_predicted hr' hc,
    Reference.toNat_cell hmax h hr hc]

end Intra

/-- **Every predictor that the library has for a kernel writes the cells of the closed form**, from every
border that supplies the kernel. -/
theorem writesCells_of_isIntraKernel {depth : Depth} {kernel : IntraKernel} {block : BlockSize}
    {edge : IntraEdge depth.storage} {run : IntraFn depth.storage}
    (hrun : IsIntraKernel kernel block run)
    (hblock : (KernelKind.intra kernel).supports block = true)
    (hedge : edge.Supplies kernel block.width depth.max) :
    WritesCells run block.width edge depth.max ((Reference.cells block.width block.width).map fun c =>
      Intra.value kernel block.width edge depth.max c.2 c.1) := by
  have hside := Intra.isSide_of_supports hblock
  have hmax := Kernels.max_mem_maxima (rfl : depth.storage = _)
  -- whichever predictor it is, what it writes is the predicted block
  have hwritten : ∀ destination : Plane depth.storage,
      destination.fits block.width block.width = .ok true →
        run destination edge depth.max
          = destination.paint (Intra.predicted kernel block.width edge depth.max) :=
    fun destination hfits => Kernels.run_intra hrun hblock rfl hedge hfits
  refine ⟨⟨Intra.predicted kernel block.width edge depth.max,
    Reference.flatten_predicted hmax hedge, Intra.length_predicted,
    fun row hrow => Intra.length_of_mem_predicted hrow, hwritten⟩, ?_, ?_⟩
  · intro destination hfits
    have hn := hside.le
    rw [hwritten destination hfits]
    exact (Plane.paint_predicted_of_fits kernel edge depth.max (by omega) hfits).1
  · intro destination hfits hstride
    rw [hwritten destination hfits]
    exact Intra.readBlock_paint_predicted hside hmax hedge hfits hstride

/-! ## §3. The default registry. -/

/-- **Every implementation that the default registry has for an intra slot writes the block that the
reference predicts**, for every border with samples enough and in range, and whether or not the wide
one is given its token. -/
theorem default_predictors_write_reference (summons : Bool) (depth : Depth) (kernel : IntraKernel)
    (block : BlockSize) (edge : IntraEdge depth.storage)
    (hblock : (KernelKind.intra kernel).supports block = true)
    (hedge : edge.Complete kernel block.width depth.max) :
    ∃ registry cells,
      Registry.withDefaults summons depth.storage depth = .ok registry ∧
      registry.candidates ⟨.intra kernel, block⟩ = Registry.defaults summons ⟨.intra kernel, block⟩ ∧
      Reference.predict kernel block.width edge depth.max = .ok cells ∧
      ∀ implementation ∈ registry.candidates ⟨.intra kernel, block⟩,
        ∃ run, implementation.kernel = .intra run ∧
          WritesCells run block.width edge depth.max cells := by
  obtain ⟨registry, hregistry, _, hcandidates⟩ :=
    Registry.withDefaults_eq summons (rfl : depth.storage = _)
  have hslot : registry.candidates ⟨.intra kernel, block⟩
      = Registry.defaults summons ⟨.intra kernel, block⟩ :=
    (hcandidates _).trans (if_pos hblock)
  have hside := Intra.isSide_of_supports hblock
  have hmax := Kernels.max_mem_maxima (rfl : depth.storage = _)
  refine ⟨registry, _, hregistry, hslot, Reference.predict_eq_values hside hmax hedge, ?_⟩
  intro implementation hin
  rw [hslot] at hin
  obtain ⟨run, hrun, hintra⟩ := kernel_of_mem_defaults hblock hin
  exact ⟨run, hrun, writesCells_of_isIntraKernel hintra hblock hedge.supplies⟩

/-- A border of bright samples above and dark ones to the left. -/
def litFromAbove : IntraEdge .word := ⟨500, Array.replicate 32 700, Array.replicate 16 300, true, true⟩

theorem litFromAbove_complete : litFromAbove.Complete .tm 16 Depth.ten.max where
  above_size := by decide
  left_size := by decide
  above_le := fun v hv => by
    obtain ⟨_, rfl⟩ := Array.mem_replicate.mp hv
    decide
  left_le := fun v hv => by
    obtain ⟨_, rfl⟩ := Array.mem_replicate.mp hv
    decide
  corner_le := by decide

/-- Both implementations of tm at 16x16, over ten-bit samples. -/
theorem default_tm_16x16_writes_reference :
    (KernelKind.intra .tm).supports .b16x16 = true ∧ litFromAbove.Complete .tm 16 Depth.ten.max ∧
    ∃ registry cells,
      Registry.withDefaults true .word .ten = .ok registry ∧
      registry.candidates ⟨.intra .tm, .b16x16⟩ = Registry.defaults true ⟨.intra .tm, .b16x16⟩ ∧
      Reference.predict .tm 16 litFromAbove Depth.ten.max = .ok cells ∧
      ∀ implementation ∈ registry.candidates ⟨.intra .tm, .b16x16⟩,
        ∃ run, implementation.kernel = .intra run ∧
          WritesCells run 16 litFromAbove Depth.ten.max cells :=
  ⟨by decide, litFromAbove_complete,
    default_predictors_write_reference true .ten .tm .b16x16 litFromAbove (by decide)
      litFromAbove_complete⟩

end PixelKernels
