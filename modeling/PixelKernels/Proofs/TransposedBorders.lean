/-
  PixelKernels.Proofs.TransposedBorders
  ─────────────────────────────────────
  **EXCHANGING ROW AND COLUMN OF A BORDER TRANSPOSES THE BLOCK.**

  A transposed border is the same line through the corner, walked the other way
  (`IntraEdge.line_transpose`).  For every kernel that treats both sides alike,
  and for every pair of kernels of which one does above what the other does to
  the left, the cell in row `r` and column `c` becomes the one in row `c` and
  column `r` (`Intra.value_transpose`):

      dc ↔ dc      dc_top ↔ dc_left      dc_128 ↔ dc_128
      v ↔ h        tm ↔ tm               d135 ↔ d135

  d45 and d117 lean to one side and have no partner.
-/
import PixelKernels.Proofs.PredictedNumbers

namespace PixelKernels

open Intra (value)

variable {s : Storage}

/-! ## §1. Partners. -/

/-- The kernel that does with the row what this one does with the column, where there is one. -/
def IntraKernel.mirror? : IntraKernel → Option IntraKernel
  | .dc => some .dc
  | .dcLeft => some .dcTop
  | .dcTop => some .dcLeft
  | .dc128 => some .dc128
  | .v => some .h
  | .h => some .v
  | .tm => some .tm
  | .d135 => some .d135
  | .d45 | .d117 => none

/-- The mode that does with the row what this one does with the column, where there is one. -/
def IntraMode.mirror? : IntraMode → Option IntraMode
  | .dc => some .dc
  | .v => some .h
  | .h => some .v
  | .tm => some .tm
  | .d135 => some .d135
  | .d45 | .d117 => none

/-- **Partners read each other's sides.** -/
theorem IntraKernel.reads_of_mirror? {kernel mirrored : IntraKernel}
    (h : kernel.mirror? = some mirrored) (n : Nat) :
    mirrored.aboveLength n = kernel.leftLength n ∧ mirrored.leftLength n = kernel.aboveLength n ∧
      mirrored.readsTopLeft = kernel.readsTopLeft := by
  cases kernel <;> cases h <;> exact ⟨rfl, rfl, rfl⟩

namespace IntraEdge

variable (edge : IntraEdge s)

theorem aboveAt_transpose (i : Nat) : edge.transpose.aboveAt i = edge.leftAt i := rfl

theorem leftAt_transpose (i : Nat) : edge.transpose.leftAt i = edge.aboveAt i := rfl

/-- **A transposed border is the same line, walked the other way.** -/
theorem line_transpose (i : Int) : edge.transpose.line i = edge.line (-i) := by
  rcases Int.lt_trichotomy i 0 with hleft | rfl | habove
  · unfold line
    rw [if_neg (by omega), if_neg (by omega), if_pos (by omega)]
    rfl
  · rfl
  · unfold line
    rw [if_pos habove, if_neg (by omega), if_neg (by omega), Int.neg_neg]
    rfl

variable {edge}

/-- A transposed border chooses the partner of the kernel, among the DC kernels too. -/
theorem kernelFor_transpose {mode mirrored : IntraMode} (h : mode.mirror? = some mirrored) :
    (edge.kernelFor mode).mirror? = some (edge.transpose.kernelFor mirrored) := by
  cases mode <;> cases h
  · -- which neighbours exist is exchanged along with them
    obtain ⟨_, _, _, haveAbove, haveLeft⟩ := edge
    cases haveAbove <;> cases haveLeft <;> rfl
  all_goals rfl

/-- What supplies a kernel supplies its partner once it is transposed. -/
theorem Supplies.transpose {kernel mirrored : IntraKernel} {n max : Nat}
    (h : edge.Supplies kernel n max) (hmirror : kernel.mirror? = some mirrored) :
    edge.transpose.Supplies mirrored n max := by
  obtain ⟨habove, hleft, hcorner⟩ := IntraKernel.reads_of_mirror? hmirror n
  refine ⟨?_, ?_, ?_, ?_, ?_⟩
  · rw [habove]
    exact h.left_size
  · rw [hleft]
    exact h.above_size
  · rw [habove]
    exact h.left_le
  · rw [hleft]
    exact h.above_le
  · rw [hcorner]
    exact h.corner_le

end IntraEdge

/-! ## §2. Transposed cells. -/

/-- **What the partner predicts from the transposed border is the transposed block.** -/
theorem Intra.value_transpose {kernel mirrored : IntraKernel} (h : kernel.mirror? = some mirrored)
    (n : Nat) (edge : IntraEdge s) (max r c : Nat) :
    value mirrored n edge.transpose max r c = value kernel n edge max c r := by
  cases kernel with
  | dc =>
    cases h
    simp only [value, edge.aboveAt_transpose, edge.leftAt_transpose]
    rw [Nat.add_comm (∑ i ∈ Finset.range n, edge.leftAt i)]
  | tm =>
    cases h
    have hplane : (edge.leftAt c + (edge.aboveAt r - edge.topLeft.toNat) : Int)
        = edge.aboveAt r + (edge.leftAt c - edge.topLeft.toNat) := by
      omega
    show min (edge.leftAt c + (edge.aboveAt r - edge.topLeft.toNat) : Int).toNat max = _
    rw [hplane]
    rfl
  | d135 =>
    cases h
    -- the same three samples, met in the opposite order
    have hbefore : -((c : Int) - r - 1) = r - c + 1 := by omega
    have hat : -((c : Int) - r) = r - c := by omega
    have hafter : -((c : Int) - r + 1) = r - c - 1 := by omega
    simp only [value, edge.line_transpose]
    rw [hbefore, hat, hafter, Intra.average3_comm]
  -- the others read one side at most, and their partner reads it where it is now
  | _ => cases h <;> rfl

/-! ## §3. Any level. -/

/-- **At every level exchanging the row and the column of a border transposes the block**, with the
partner of the kernel in place of the kernel. -/
theorem predictions_transpose (processor : Processor) (level : CpuLevel) (depth : Depth)
    (block : BlockSize) (mode mirrored : IntraMode) (edge : IntraEdge depth.storage)
    (hmirror : mode.mirror? = some mirrored) (hblock : (KernelKind.intra .dc).supports block = true)
    (hedge : edge.Supplies (edge.kernelFor mode) block.width depth.max) :
    (edge.kernelFor mode).mirror? = some (edge.transpose.kernelFor mirrored) ∧
    ∃ kernels cells, Kernels.atLevel processor level = .ok kernels ∧
      kernels.Predicts depth block mode edge cells ∧
      kernels.Predicts depth block mirrored edge.transpose fun r c => cells c r := by
  obtain ⟨kernels, hkernels, hselects⟩ := Kernels.atLevel_selects processor level
  have hpartner := edge.kernelFor_transpose hmirror
  have htransposed := Kernels.predicts_of_supplies hselects rfl hblock (hedge.transpose hpartner)
  refine ⟨hpartner, kernels, _, hkernels, Kernels.predicts_of_supplies hselects rfl hblock hedge,
    htransposed.congr fun r _ c _ => ?_⟩
  exact Intra.value_transpose hpartner block.width edge depth.max r c

/-- Twelve-bit samples that rise fast above and slowly to the left. -/
def slantedBorder : IntraEdge .word :=
  ⟨4000, Array.ofFn fun i : Fin 8 => BitVec.ofNat 16 (500 * i),
    Array.ofFn fun i : Fin 8 => BitVec.ofNat 16 (10 * i), true, true⟩

theorem slantedBorder_supplies : slantedBorder.Supplies .d135 8 Depth.twelve.max where
  above_size := by decide
  left_size := by decide
  above_le := by decide
  left_le := by decide
  corner_le := by decide

/-- The diagonals of d135 run from the exchanged sides into the transposed block. -/
theorem d135_of_slantedBorder_transposes :
    IntraMode.d135.mirror? = some .d135 ∧ (KernelKind.intra .dc).supports .b8x8 = true ∧
    slantedBorder.Supplies .d135 8 Depth.twelve.max ∧
    ∃ kernels cells, Kernels.atLevel .full .v3 = .ok kernels ∧
      kernels.Predicts .twelve .b8x8 .d135 slantedBorder cells ∧
      kernels.Predicts .twelve .b8x8 .d135 slantedBorder.transpose fun r c => cells c r :=
  ⟨rfl, by decide, slantedBorder_supplies,
    (predictions_transpose .full .v3 .twelve .b8x8 .d135 .d135 slantedBorder rfl (by decide)
      slantedBorder_supplies).2⟩

end PixelKernels
