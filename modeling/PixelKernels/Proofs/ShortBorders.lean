/-
  PixelKernels.Proofs.ShortBorders
  ────────────────────────────────
  **BORDERS THAT A KERNEL ACCEPTS AND THE REFERENCE HAS NO ANSWER FOR.**

  A kernel asks for the samples that it declares, and of a neighbour that may
  be none.  The reference sums the first `n` samples of both neighbours before
  it looks at the kernel, so it reads past a neighbour that ends before the
  side does, whatever the kernel would have read of it.

  Nothing else sets the two apart.  On a border that passes the kernel's
  checks the reference answers exactly where both neighbours reach along the
  whole side, and what it answers there is what the kernel writes
  (`reference_answers_iff_reaches`).  The checks alone make sure of that for
  the four kernels that declare a whole side of both neighbours
  (`forall_reaches_iff`).
-/
import PixelKernels.Proofs.PredictorConformance

namespace PixelKernels

variable {s : Storage} {edge : IntraEdge s} {kernel : IntraKernel} {n max : Nat}

/-! ## §1. The reference on a border that ends early. -/

namespace Reference

/-- **Where one neighbour ends before the side does, every kernel's reference reads past its end.** -/
theorem predict_of_not_reaches (hn : n ≤ 32) (h : ¬ edge.Reaches n) :
    Reference.predict kernel n edge max = .error .index := by
  -- the row above is summed first, so a short column shows only behind a long row
  by_cases habove : n ≤ edge.above.size
  · have hleft : edge.left.size < n := by
      by_contra hlong
      exact h ⟨habove, by omega⟩
    rw [Reference.predict, neighbourSum_eq hn habove, Outcome.ok_bind, neighbourSum_of_lt hn hleft]
    rfl
  · rw [Reference.predict, neighbourSum_of_lt hn (by omega)]
    rfl

end Reference

/-! ## §2. Which kernels' checks rule such borders out. -/

/-- **A kernel accepts no border that ends early exactly if it declares a whole side of both
neighbours.** -/
theorem IntraEdge.forall_reaches_iff {block : BlockSize}
    (hblock : (KernelKind.intra kernel).supports block = true) :
    (∀ edge : IntraEdge s, edge.check kernel block = .ok () → edge.Reaches block.width)
      ↔ kernel ∈ [IntraKernel.dc, .tm, .d117, .d135] := by
  have hpos := (Intra.isSide_of_supports hblock).pos
  constructor
  · -- the shortest border that the kernel accepts decides
    intro hreaches
    have hshortest := hreaches
      ⟨0, Array.replicate (kernel.aboveLength block.width) 0,
        Array.replicate (kernel.leftLength block.width) 0, true, true⟩
      (Kernels.check_eq_ok_iff.mpr ⟨hblock, by simp, by simp⟩)
    have habove := hshortest.above_size
    have hleft := hshortest.left_size
    rw [Array.size_replicate] at habove hleft
    cases kernel <;> simp [IntraKernel.aboveLength, IntraKernel.leftLength] at habove hleft ⊢ <;> omega
  · intro hkernel edge hcheck
    obtain ⟨_, habove, hleft⟩ := Kernels.check_eq_ok_iff.mp hcheck
    simp only [List.mem_cons, List.not_mem_nil, or_false] at hkernel
    obtain rfl | rfl | rfl | rfl := hkernel
    all_goals exact ⟨habove, hleft⟩

/-! ## §3. Where the reference answers. -/

/-- **On a border that passes a kernel's checks the reference answers exactly where both neighbours
reach along the side, and then with the cells that the kernel writes.**  Everywhere else it reads
past the end of a neighbour, and the kernel still writes its block. -/
theorem reference_answers_iff_reaches (depth : Depth) (kernel : IntraKernel) (block : BlockSize)
    (edge : IntraEdge depth.storage) (hcheck : edge.check kernel block = .ok ())
    (hrange : Kernels.requireEdgeInRange depth kernel block.width edge = .ok ()) :
    ∃ cells : List Nat, cells.length = block.width * block.width ∧
      WritesCells (Intra.Portable.predict kernel block.width) block.width edge depth.max cells ∧
      (Reference.predict kernel block.width edge depth.max = .ok cells ↔ edge.Reaches block.width) ∧
      (Reference.predict kernel block.width edge depth.max = .error .index
        ↔ ¬ edge.Reaches block.width) := by
  obtain ⟨hblock, habove, hleft⟩ := Kernels.check_eq_ok_iff.mp hcheck
  have hsupplies := (Kernels.requireEdgeInRange_eq_ok_iff habove hleft).mp hrange
  have hside := Intra.isSide_of_supports hblock
  have hmax := Kernels.max_mem_maxima (rfl : depth.storage = _)
  refine ⟨_, ?_, writesCells_of_isIntraKernel (.inl rfl) hblock hsupplies, ?_⟩
  · rw [List.length_map, Reference.length_cells]
  · by_cases hreach : edge.Reaches block.width
    · rw [Reference.predict_of_reaches hside hmax hreach hsupplies]
      exact ⟨iff_of_true rfl hreach, iff_of_false nofun (not_not_intro hreach)⟩
    · rw [Reference.predict_of_not_reaches hside.le hreach]
      exact ⟨iff_of_false nofun hreach, iff_of_true rfl hreach⟩

/-- A border with a bright row above, and to the left cells that are no samples of ten bits. -/
def litRow : IntraEdge .word := ⟨0, Array.replicate 16 700, Array.replicate 16 65535, true, false⟩

/-- The mean of the row at 16x16: the column is summed and not used. -/
theorem reference_answers_dcTop_16x16 :
    litRow.check .dcTop .b16x16 = .ok () ∧
    Kernels.requireEdgeInRange .ten .dcTop 16 litRow = .ok () ∧ litRow.Reaches 16 ∧
    ∃ cells : List Nat, cells.length = 16 * 16 ∧
      WritesCells (Intra.Portable.predict .dcTop 16) 16 litRow Depth.ten.max cells ∧
      Reference.predict .dcTop 16 litRow Depth.ten.max = .ok cells := by
  have hcheck : litRow.check .dcTop .b16x16 = .ok () := by decide
  have hrange : Kernels.requireEdgeInRange .ten .dcTop 16 litRow = .ok () := by decide
  have hreaches : litRow.Reaches 16 := ⟨by decide, by decide⟩
  obtain ⟨cells, hlength, hwrites, hanswers, _⟩ :=
    reference_answers_iff_reaches .ten .dcTop .b16x16 litRow hcheck hrange
  exact ⟨hcheck, hrange, hreaches, cells, hlength, hwrites, hanswers.mpr hreaches⟩

/-- A border with a column and no row above, as at the top of a picture. -/
def columnOnly : IntraEdge .byte := ⟨0, #[], #[10, 20, 30, 40], false, true⟩

/-- The horizontal kernel reads the column alone and writes its block; the reference for it sums the
missing row first. -/
theorem reference_faults_on_column_only :
    columnOnly.check .h .b4x4 = .ok () ∧
    Kernels.requireEdgeInRange .eight .h 4 columnOnly = .ok () ∧
    Intra.Portable.block .h 4 columnOnly Depth.eight.max
      = .ok [[10, 10, 10, 10], [20, 20, 20, 20], [30, 30, 30, 30], [40, 40, 40, 40]] ∧
    Reference.predict .h 4 columnOnly Depth.eight.max = .error .index := by
  decide

end PixelKernels
