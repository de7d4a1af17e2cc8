/-
  PixelKernels.Proofs.PredictedNumbers
  ────────────────────────────────────
  **A PREDICTION AS A MATRIX OF NUMBERS.**

  `Kernels.Predicts` says that a bundle predicts a block on its own, that the
  buffer then holds these numbers, row after row, and that any destination with
  room for the block has it written there.  The cell width is gone from what
  was predicted, so predictions at two depths, or from two borders, can be
  compared as matrices.

  A border that supplies its kernel is predicted from, and the matrix is that
  of the closed form (`Kernels.predicts_of_supplies`).
-/
import PixelKernels.Proofs.OverlappingRows
import PixelKernels.Proofs.ReferencePrediction
import PixelKernels.Proofs.RoundedMeans

namespace PixelKernels

open Intra (predicted value)

variable {s : Storage} {depth : Depth} {block : BlockSize} {mode : IntraMode} {edge : IntraEdge s}

/-- The block is predicted on its own, with the number `cells r c` in row `r` and column `c`, and is
written in full into every destination that has room for it. -/
structure Kernels.Predicts (kernels : Kernels) (depth : Depth) (block : BlockSize) (mode : IntraMode)
    (edge : IntraEdge s) (cells : Nat → Nat → Nat) : Prop where
  outcome : (kernels.predictAlone depth block mode edge).outcome = .ok ()
  size : (kernels.predictAlone depth block mode edge).buffer.size = block.area
  cells : ∀ r < block.width, ∀ c < block.width,
    ∃ v, (kernels.predictAlone depth block mode edge).buffer[block.width * r + c]? = some v ∧
      v.toNat = cells r c
  elsewhere : ∀ destination : Plane s, destination.base < 1 <<< 64 →
    destination.fits block.width block.height = .ok true →
      (kernels.predictIntra depth block mode destination edge).outcome = .ok () ∧
        destination.FullyWritten block.width (kernels.predictAlone depth block mode edge).buffer
          (kernels.predictIntra depth block mode destination edge).buffer

namespace Kernels

variable {kernels : Kernels} {processor : Processor}

/-- Only the cells of the block matter. -/
theorem Predicts.congr {cells cells' : Nat → Nat → Nat}
    (h : kernels.Predicts depth block mode edge cells)
    (hsame : ∀ r < block.width, ∀ c < block.width, cells r c = cells' r c) :
    kernels.Predicts depth block mode edge cells' where
  outcome := h.outcome
  size := h.size
  cells := by
    intro r hr c hc
    rw [← hsame r hr c hc]
    exact h.cells r hr c hc
  elsewhere := h.elsewhere

/-- A border that supplies its kernel is predicted from into every destination with room. -/
theorem predictIntra_of_supplies (h : kernels.Selects processor) (hdepth : depth.storage = s)
    (hblock : (KernelKind.intra .dc).supports block = true)
    (hsupplies : edge.Supplies (edge.kernelFor mode) block.width depth.max) {destination : Plane s}
    (hfits : destination.fits block.width block.height = .ok true) :
    (kernels.predictIntra depth block mode destination edge).outcome = .ok () := by
  obtain ⟨hsquare, -, hside⟩ := KernelKind.intra_supports hblock
  have hchecks : checkPrediction depth block mode destination edge = .ok () := by
    rw [checkPrediction_of_supplies hblock hsupplies, hfits]
    rfl
  rw [predictIntra_eq h hdepth, hchecks]
  rw [hsquare] at hfits
  exact (Plane.paint_predicted_of_fits (edge.kernelFor mode) edge depth.max (by omega) hfits).1

/-- **A border that supplies its kernel is predicted from, and the numbers are those of the closed
form.** -/
theorem predicts_of_supplies (h : kernels.Selects processor) (hdepth : depth.storage = s)
    (hblock : (KernelKind.intra .dc).supports block = true)
    (hsupplies : edge.Supplies (edge.kernelFor mode) block.width depth.max) :
    kernels.Predicts depth block mode edge
      (value (edge.kernelFor mode) block.width edge depth.max) := by
  obtain ⟨hsquare, -, hside⟩ := KernelKind.intra_supports hblock
  have hown : (kernels.predictAlone depth block mode edge).outcome = .ok () :=
    predictIntra_of_supplies h hdepth hblock hsupplies (fits_freshBlock s block)
  have halone := predictAlone_eq h hdepth (predictIntra_of_ok h hdepth hown).1
  have hroom : (freshBlock s block).fits block.width block.width = .ok true := by
    rw [← fits_freshBlock s block, hsquare]
  refine ⟨hown, ?_, ?_, ?_⟩
  · rw [halone, (Plane.paint_predicted_of_fits _ _ _ (by omega) hroom).2, freshBlock,
      Array.size_replicate]
  · intro r hr c hc
    have hr' : r < (predicted (edge.kernelFor mode) block.width edge depth.max).length := by
      rw [Intra.length_predicted]
      exact hr
    refine ⟨Intra.cell (edge.kernelFor mode) block.width edge depth.max r c, ?_,
      Reference.toNat_cell (max_mem_maxima hdepth) hsupplies hr hc⟩
    rw [halone, getElem?_paint_freshBlock (Intra.length_predicted.trans hsquare.symm)
      (fun _ hrow => Intra.length_of_mem_predicted hrow) hc hr']
    simp [predicted, Intra.tabulate, hc]
  · intro destination hbase hfits
    have hok := predictIntra_of_supplies h hdepth hblock hsupplies hfits
    exact ⟨hok, (fullyWritten_of_ok h hdepth hbase hok).2⟩

/-- The same for a border that was changed sample by sample, which has the kernel that it had before. -/
theorem predicts_map {t : Storage} (h : kernels.Selects processor) (hdepth : depth.storage = t)
    (hblock : (KernelKind.intra .dc).supports block = true) {f : Sample s → Sample t}
    (hsupplies : (edge.map f).Supplies (edge.kernelFor mode) block.width depth.max) :
    kernels.Predicts depth block mode (edge.map f)
      (value (edge.kernelFor mode) block.width (edge.map f) depth.max) := by
  have hkernel := IntraEdge.kernelFor_map f edge mode
  rw [← hkernel] at hsupplies ⊢
  exact predicts_of_supplies h hdepth hblock hsupplies

end Kernels

end PixelKernels
