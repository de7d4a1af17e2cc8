/-
  PixelKernels.Proofs.BatchedCosts
  ────────────────────────────────
  **A BATCH OF FOUR IS FOUR SINGLE CALLS.**

  The entry point for four references checks them one after another, the range
  of each before the fit of the next; the single one checks the fit of both its
  planes first.  The wide kernel carries four sums down the rows at once.  None
  of this can be seen from outside: as long as the references have one stride,

    • the batch is answered exactly if all four single calls are, and
    • each of its elements is the answer to the call with its own reference
      (`Kernels.sadX4_eq_ok_iff`),

  wherever the references lie.  They may overlap or be the same.
-/
import PixelKernels.Proofs.EntryPoints

namespace PixelKernels

open Sad (cost)

variable {s : Storage} {depth : Depth} {block : BlockSize}

namespace Kernels

variable {kernels : Kernels} {processor : Processor} (h : kernels.Selects processor) {source : Plane s}
  {references : Vector (Plane s) 4}
  (hstride : ∀ p ∈ references, ∀ q ∈ references, p.stride = q.stride)
include h hstride

/-- **Four costs answer the batch exactly if each of them answers its single call.** -/
theorem sadX4_eq_ok_iff {costs : Vector Nat 4} :
    kernels.sadX4 depth block source references = .ok costs
      ↔ ∀ i (_ : i < 4), kernels.sad depth block source references[i] = .ok costs[i] := by
  by_cases hdepth : depth.storage = s
  · have hcommon := Sad.Portable.commonStride_eq_true_iff.mpr hstride
    rw [sadX4_eq h hdepth, Outcome.check_bind_eq_ok_iff, checkSadX4_eq_ok_iff,
      if_pos (.inr hcommon)]
    constructor
    · rintro ⟨⟨hs, hr⟩, hcosts⟩ i hi
      obtain rfl := Except.ok.inj hcosts
      have hin : references[i] ∈ references := Vector.getElem_mem hi
      refine (sad_eq_ok_iff h hdepth).mpr ⟨⟨hs, hr _ hin⟩, ?_⟩
      rw [Vector.getElem_map]
    · intro hsingle
      have hall := fun i hi => (sad_eq_ok_iff h hdepth).mp (hsingle i hi)
      -- the source was let through by any of the four
      refine ⟨⟨(hall 0 (by omega)).1.1, ?_⟩, ?_⟩
      · intro reference hin
        obtain ⟨i, hi, rfl⟩ := Vector.getElem_of_mem hin
        exact (hall i hi).1.2
      · refine congrArg Except.ok (Vector.ext fun i hi => ?_)
        rw [Vector.getElem_map]
        exact (hall i hi).2
  · rw [sadX4_of_ne kernels hdepth]
    constructor
    · intro hbatch
      cases hbatch
    · intro hsingle
      have hfirst := hsingle 0 (by omega)
      rw [sad_of_ne kernels hdepth] at hfirst
      cases hfirst

/-- **The batch is answered exactly if all four single calls are.** -/
theorem sadX4_answers_iff :
    (∃ costs, kernels.sadX4 depth block source references = .ok costs)
      ↔ ∀ i (_ : i < 4), ∃ answer, kernels.sad depth block source references[i] = .ok answer := by
  constructor
  · rintro ⟨costs, hcosts⟩ i hi
    exact ⟨costs[i], (sadX4_eq_ok_iff h hstride).mp hcosts i hi⟩
  · intro hsingle
    choose answer hanswer using hsingle
    refine ⟨Vector.ofFn fun i => answer i i.isLt, (sadX4_eq_ok_iff h hstride).mpr ?_⟩
    intro i hi
    rw [Vector.getElem_ofFn]
    exact hanswer i hi

end Kernels

/-- **At every level a batch against four references of one stride is four single calls.** -/
theorem batches_are_single_calls (processor : Processor) (level : CpuLevel) :
    ∃ kernels, Kernels.atLevel processor level = .ok kernels ∧
      ∀ (s : Storage) (depth : Depth) (block : BlockSize) (source : Plane s)
        (references : Vector (Plane s) 4),
        (∀ p ∈ references, ∀ q ∈ references, p.stride = q.stride) →
          ((∃ costs, kernels.sadX4 depth block source references = .ok costs)
            ↔ ∀ i (_ : i < 4), ∃ answer,
                kernels.sad depth block source references[i] = .ok answer) ∧
          ∀ costs, kernels.sadX4 depth block source references = .ok costs →
            ∀ i (_ : i < 4), kernels.sad depth block source references[i] = .ok costs[i] := by
  obtain ⟨kernels, hkernels, hselects⟩ := Kernels.atLevel_selects processor level
  refine ⟨kernels, hkernels, ?_⟩
  intro s depth block source references hstride
  refine ⟨Kernels.sadX4_answers_iff hselects hstride, ?_⟩
  intro costs hcosts
  exact (Kernels.sadX4_eq_ok_iff hselects hstride).mp hcosts

/-- Rows of a buffer of rising samples, each a sample after the one above it, from `base` on. -/
def risingRows (base : Nat) : Plane .byte := ⟨Array.ofFn fun i : Fin 32 => BitVec.ofNat 8 i, base, 1⟩

/-- Three overlapping references and one of them again. -/
def overlappingRows : Vector (Plane .byte) 4 :=
  #v[risingRows 0, risingRows 3, risingRows 9, risingRows 3]

/-- References that overlap, with vector registers: each has its own cost, and equal ones have equal
costs. -/
theorem batch_of_overlappingRows :
    (∀ p ∈ overlappingRows, ∀ q ∈ overlappingRows, p.stride = q.stride) ∧
    ∃ kernels, Kernels.atLevel .full .v3 = .ok kernels ∧
      kernels.sadX4 .eight .b16x8 (risingRows 0) overlappingRows = .ok #v[0, 384, 1152, 384] := by
  obtain ⟨kernels, hkernels, hcalls⟩ := batches_are_single_calls .full .v3
  have hselects : kernels.Selects _ := Kernels.selects_of_atLevel hkernels
  have hstride : ∀ p ∈ overlappingRows, ∀ q ∈ overlappingRows, p.stride = q.stride := by
    simp [overlappingRows, risingRows]
  have hadmits : ∀ p ∈ overlappingRows, Kernels.Admits .eight .b16x8 p := by
    simp only [overlappingRows, Vector.mem_mk, List.mem_toArray, List.mem_cons, List.not_mem_nil,
      or_false, forall_eq_or_imp, forall_eq]
    exact ⟨⟨rfl, Kernels.inRange_eight _⟩, ⟨rfl, Kernels.inRange_eight _⟩,
      ⟨rfl, Kernels.inRange_eight _⟩, ⟨rfl, Kernels.inRange_eight _⟩⟩
  have hcosts : ∀ i (_ : i < 4), cost 16 8 (risingRows 0).pixel overlappingRows[i].pixel
      = #v[0, 384, 1152, 384][i] := by
    decide +kernel
  have hsingle : ∀ i (_ : i < 4),
      kernels.sad .eight .b16x8 (risingRows 0) overlappingRows[i] = .ok #v[0, 384, 1152, 384][i] := by
    intro i hi
    exact (Kernels.sad_eq_ok_iff hselects rfl).mpr
      ⟨⟨hadmits (risingRows 0) (by simp [overlappingRows]), hadmits _ (Vector.getElem_mem hi)⟩,
        hcosts i hi⟩
  obtain ⟨hanswers, helements⟩ := hcalls .byte .eight .b16x8 (risingRows 0) overlappingRows hstride
  obtain ⟨costs, hbatch⟩ := hanswers.mpr fun i hi => ⟨_, hsingle i hi⟩
  -- the elements of the batch are the four answers
  have hequal : costs = #v[0, 384, 1152, 384] := by
    apply Vector.ext
    intro i hi
    exact Except.ok.inj ((helements costs hbatch i hi).symm.trans (hsingle i hi))
  exact ⟨hstride, kernels, hkernels, hequal ▸ hbatch⟩

end PixelKernels
