/-
  PixelKernels.Proofs.DeclaredReads
  ─────────────────────────────────
  **A PREDICTION DEPENDS ON NO SAMPLE THAT ITS KERNEL DOES NOT DECLARE.**

  The catalog declares how many samples above and to the left a kernel reads,
  and whether it reads the corner.  Only these samples are checked.  Two
  borders that agree on them are told apart by nothing: not by the checks, and
  not by any kernel that a level can select, whatever else the borders hold.

    • The lengths decide whether a border is refused (`check_congr`), and the
      range is checked on the declared samples (`requireEdgeInRange_congr`).
    • To a kernel the two borders have the same numbers (`mapsTo_id`), so every
      cell is a function of the declared samples (`value_congr`).
    • A prediction is its checks and then its cells, at every level
      (`predictIntra_eq`), so it is a function of them too.
-/
import PixelKernels.Proofs.EntryPoints
import PixelKernels.Proofs.RoundedMeans

namespace PixelKernels

variable {s : Storage}

/-! ## §1. Borders that agree where a kernel reads. -/

/-- Two borders with neighbours of the same lengths that agree on what a kernel reads at side `n`. -/
structure IntraEdge.AgreesOn (edge other : IntraEdge s) (kernel : IntraKernel) (n : Nat) : Prop where
  above_size : edge.above.size = other.above.size
  left_size : edge.left.size = other.left.size
  above : ∀ i < kernel.aboveLength n, edge.above[i]? = other.above[i]?
  left : ∀ i < kernel.leftLength n, edge.left[i]? = other.left[i]?
  corner : kernel.readsTopLeft = true → edge.topLeft = other.topLeft

namespace IntraEdge.AgreesOn

variable {edge other : IntraEdge s} {kernel : IntraKernel} {n : Nat} (h : edge.AgreesOn other kernel n)
include h

theorem above_getD {i : Nat} (hi : i < kernel.aboveLength n) :
    edge.above.getD i 0 = other.above.getD i 0 := by
  rw [Array.getD_eq_getD_getElem?, Array.getD_eq_getD_getElem?, h.above i hi]

theorem left_getD {i : Nat} (hi : i < kernel.leftLength n) :
    edge.left.getD i 0 = other.left.getD i 0 := by
  rw [Array.getD_eq_getD_getElem?, Array.getD_eq_getD_getElem?, h.left i hi]

theorem aboveAt_eq {i : Nat} (hi : i < kernel.aboveLength n) : edge.aboveAt i = other.aboveAt i :=
  congrArg BitVec.toNat (h.above_getD hi)

theorem leftAt_eq {i : Nat} (hi : i < kernel.leftLength n) : edge.leftAt i = other.leftAt i :=
  congrArg BitVec.toNat (h.left_getD hi)

/-- To a kernel the two borders have the same numbers. -/
theorem mapsTo_id : edge.MapsTo other id kernel n where
  above := fun _ hi => (h.aboveAt_eq hi).symm
  left := fun _ hi => (h.leftAt_eq hi).symm
  corner := fun hcorner => congrArg BitVec.toNat (h.corner hcorner).symm

/-! ## §2. Predicted cells. -/

open Intra (value)

/-- **Every cell of a block is a function of the samples that its kernel declares.** -/
theorem value_congr (max : Nat) {r c : Nat} (hr : r < n) (hc : c < n) :
    value kernel n edge max r c = value kernel n other max r c :=
  (Intra.value_of_mapsTo_id h.mapsTo_id hr hc).symm

theorem predicted_congr (max : Nat) :
    Intra.predicted kernel n edge max = Intra.predicted kernel n other max := by
  unfold Intra.predicted Intra.tabulate
  apply List.map_congr_left
  intro r hr
  apply List.map_congr_left
  intro c hc
  exact congrArg (BitVec.ofNat s.bits)
    (h.value_congr max (List.mem_range.mp hr) (List.mem_range.mp hc))

/-! ## §3. Checks. -/

omit h in
/-- Whether a border is refused, and why, is a matter of its lengths. -/
theorem check_congr {block : BlockSize} (h : edge.AgreesOn other kernel n) :
    edge.check kernel block = other.check kernel block := by
  unfold IntraEdge.check
  rw [h.above_size, h.left_size]

theorem requireEdgeInRange_congr (depth : Depth) (habove : kernel.aboveLength n ≤ edge.above.size)
    (hleft : kernel.leftLength n ≤ edge.left.size) :
    Kernels.requireEdgeInRange depth kernel n edge = Kernels.requireEdgeInRange depth kernel n other := by
  have hrow : edge.aboveRow (kernel.aboveLength n) = other.aboveRow (kernel.aboveLength n) := by
    rw [aboveRow_of_le habove, aboveRow_of_le (h.above_size ▸ habove)]
    exact congrArg Except.ok (List.map_congr_left fun i hi => h.above_getD (List.mem_range.mp hi))
  have hcolumn : edge.leftColumn (kernel.leftLength n) = other.leftColumn (kernel.leftLength n) := by
    rw [leftColumn_of_le hleft, leftColumn_of_le (h.left_size ▸ hleft)]
    exact congrArg Except.ok (List.map_congr_left fun i hi => h.left_getD (List.mem_range.mp hi))
  unfold Kernels.requireEdgeInRange
  rw [hrow, hcolumn]
  -- the corner is looked at only where it is declared
  by_cases hcorner : kernel.readsTopLeft = true
  · rw [h.corner hcorner]
  · simp only [if_neg hcorner]

end IntraEdge.AgreesOn

/-- **Both borders meet the same fate in the checks.** -/
theorem Kernels.checkPrediction_congr {depth : Depth} {block : BlockSize} {mode : IntraMode}
    {destination : Plane s} {edge other : IntraEdge s} (hkernel : edge.kernelFor mode = other.kernelFor mode)
    (h : edge.AgreesOn other (edge.kernelFor mode) block.width) :
    checkPrediction depth block mode destination edge
      = checkPrediction depth block mode destination other := by
  unfold checkPrediction
  rw [← hkernel, ← h.check_congr]
  cases hcheck : edge.check (edge.kernelFor mode) block with
  | error cause => rfl
  | ok _ =>
    obtain ⟨_, habove, hleft⟩ := check_eq_ok_iff.mp hcheck
    simp only [h.requireEdgeInRange_congr depth habove hleft]

/-! ## §4. Predictions. -/

/-- **At every level a prediction depends on the border only through what its kernel declares.**
Borders of the same lengths for which the same kernel is chosen, and which agree on the declared
samples, leave the same buffer and end in the same way; all other samples may be anything. -/
theorem predictions_depend_on_declared_samples (processor : Processor) (level : CpuLevel) :
    ∃ kernels, Kernels.atLevel processor level = .ok kernels ∧
      ∀ (s : Storage) (depth : Depth) (block : BlockSize) (mode : IntraMode) (destination : Plane s)
        (edge other : IntraEdge s), edge.kernelFor mode = other.kernelFor mode →
        edge.AgreesOn other (edge.kernelFor mode) block.width →
        kernels.predictIntra depth block mode destination edge
          = kernels.predictIntra depth block mode destination other := by
  obtain ⟨kernels, hkernels, hselects⟩ := Kernels.atLevel_selects processor level
  refine ⟨kernels, hkernels, ?_⟩
  intro s depth block mode destination edge other hkernel hagrees
  by_cases hdepth : depth.storage = s
  · rw [Kernels.predictIntra_eq hselects hdepth, Kernels.predictIntra_eq hselects hdepth,
      Kernels.checkPrediction_congr hkernel hagrees, ← hkernel, hagrees.predicted_congr depth.max]
  · -- no border is looked at in the wrong cell
    rw [Kernels.predictIntra_of_ne kernels hdepth, Kernels.predictIntra_of_ne kernels hdepth]

/-- A border of ten-bit samples. -/
def plainBorder : IntraEdge .word := ⟨0, Array.replicate 32 700, Array.replicate 16 300, true, true⟩

/-- A border that a block of columns cannot tell from the plain one: past the row, to the left and in
the corner its samples are far above ten bits. -/
def wildBorder : IntraEdge .word :=
  ⟨65535, Array.replicate 16 700 ++ Array.replicate 16 65535, Array.replicate 16 65535, true, true⟩

theorem plainBorder_agreesOn_wildBorder : plainBorder.AgreesOn wildBorder .v 16 where
  above_size := rfl
  left_size := rfl
  above := by decide
  left := by decide
  corner := by decide

/-- Columns in registers, with samples above the maximum wherever they are not declared. -/
theorem columns_from_wildBorder :
    plainBorder.kernelFor .v = wildBorder.kernelFor .v ∧
    plainBorder.AgreesOn wildBorder (plainBorder.kernelFor .v) BlockSize.b16x16.width ∧
    ∃ kernels, Kernels.atLevel .full .v3 = .ok kernels ∧
      kernels.predictIntra .ten .b16x16 .v (Kernels.freshBlock .word .b16x16) plainBorder
        = kernels.predictIntra .ten .b16x16 .v (Kernels.freshBlock .word .b16x16) wildBorder := by
  obtain ⟨kernels, hkernels, hsame⟩ := predictions_depend_on_declared_samples .full .v3
  exact ⟨rfl, plainBorder_agreesOn_wildBorder, kernels, hkernels,
    hsame .word .ten .b16x16 .v (Kernels.freshBlock .word .b16x16) plainBorder wildBorder rfl
      plainBorder_agreesOn_wildBorder⟩

end PixelKernels
