/-
  PixelKernels.Proofs.AveragedCosts
  ─────────────────────────────────
  **A COST AGAINST AN AVERAGE IS A PLAIN COST AGAINST THE AVERAGED BLOCK.**

  The kernels never build the averaged block: they average a row at a time, in
  32-bit numbers or in byte and word lanes.  `Plane.averaged` builds it, packed,
  with every half rounded up, and the plain cost against it is the same number
  at every level, and the reference's.

    • Averages of samples in range are in range, so the plain call is let
      through (`Kernels.admits_averaged`).
    • An average does not know which of the two came first, so reference and
      second predictor may change places (`Kernels.sadAvg_exchanged`).
    • A sample averaged with itself stays as it is, so the reference as its own
      second predictor gives the plain cost, faults included
      (`Kernels.sadAvg_pack`).
    • Only the samples of the block are read of a second predictor
      (`Kernels.sadAvg_congr`).
-/
import PixelKernels.Proofs.PackedBlocks

namespace PixelKernels

open Sad (cost mean packed)

variable {s : Storage} {depth : Depth} {block : BlockSize}

/-! ## §1. The averaged block. -/

/-- The averages of a plane's block and a packed second predictor, as a packed plane. -/
def Plane.averaged (block : BlockSize) (reference : Plane s) (second : Array (Sample s)) : Plane s :=
  Plane.contiguous
    (Sad.pack block.width block.height fun x y =>
      mean (reference.pixel x y) (packed block.width second x y)) block.width

theorem Plane.pixel_averaged {reference : Plane s} {second : Array (Sample s)} {x y : Nat}
    (hx : x < block.width) (hy : y < block.height) :
    (Plane.averaged block reference second).pixel x y
      = mean (reference.pixel x y) (packed block.width second x y) := by
  rw [Plane.averaged, Plane.pixel_contiguous block.width_le, Sad.packed_pack _ hx hy]

namespace Kernels

/-- An average of samples in range is in range. -/
theorem toNat_mean_le {a b : Sample s} (ha : a.toNat ≤ depth.max) (hb : b.toNat ≤ depth.max) :
    (mean a b).toNat ≤ depth.max := by
  rw [Sad.toNat_mean]
  omega

/-- **The averaged block of what was let through is let through.** -/
theorem admits_averaged {reference : Plane s} {second : Array (Sample s)}
    (hr : Admits depth block reference)
    (hsecond : ∀ x < block.width, ∀ y < block.height,
      (packed block.width second x y).toNat ≤ depth.max) :
    Admits depth block (Plane.averaged block reference second) :=
  admits_contiguous_pack fun x hx y hy => toNat_mean_le (hr.inRange x hx y hy) (hsecond x hx y hy)

/-! ## §2. Four ways to the same number. -/

section Answers

variable {kernels : Kernels} {processor : Processor} (h : kernels.Selects processor)
  (hdepth : depth.storage = s) {source reference : Plane s} {second : Array (Sample s)}
include h hdepth

/-- **The plain cost against the averaged block.** -/
theorem sad_averaged (hs : Admits depth block source) (hr : Admits depth block reference)
    (hsecond : ∀ x < block.width, ∀ y < block.height,
      (packed block.width second x y).toNat ≤ depth.max) :
    kernels.sad depth block source (Plane.averaged block reference second)
      = .ok (cost block.width block.height source.pixel
          fun x y => mean (reference.pixel x y) (packed block.width second x y)) := by
  refine (sad_eq_ok_iff h hdepth).mpr ⟨⟨hs, admits_averaged hr hsecond⟩, ?_⟩
  exact Sad.cost_congr (fun _ _ _ _ => rfl) fun x hx y hy => Plane.pixel_averaged hx hy

/-- **The reference and the second predictor may change places**, the one packed and the other as a
plane. -/
theorem sadAvg_exchanged (hblock : KernelKind.sadAvg.supports block = true)
    (hs : Admits depth block source) (hr : Admits depth block reference)
    (hcover : block.area ≤ second.size)
    (hsecond : ∀ x < block.width, ∀ y < block.height,
      (packed block.width second x y).toNat ≤ depth.max) :
    kernels.sadAvg depth block source (Plane.contiguous second block.width) (reference.pack block)
      = .ok (cost block.width block.height source.pixel
          fun x y => mean (reference.pixel x y) (packed block.width second x y)) := by
  have hsize : block.area ≤ (reference.pack block).size := Nat.le_of_eq (Plane.size_pack ..).symm
  rw [sadAvg_of_admits h hdepth hblock hs (admits_contiguous hcover hsecond) hsize]
  · refine congrArg Except.ok (Sad.cost_congr (fun _ _ _ _ => rfl) fun x hx y hy => ?_)
    rw [Plane.pixel_contiguous block.width_le, Plane.packed_pack reference hx hy, Sad.mean_comm]
  · intro x hx y hy
    rw [Plane.packed_pack reference hx hy]
    exact hr.inRange x hx y hy

omit hdepth in
/-- **Averaged with itself the reference is the reference**: the call is the plain one, faults
included. -/
theorem sadAvg_pack (hblock : KernelKind.sadAvg.supports block = true) (source reference : Plane s) :
    kernels.sadAvg depth block source reference (reference.pack block)
      = kernels.sad depth block source reference := by
  by_cases hdepth : depth.storage = s
  · have hsize : block.area ≤ (reference.pack block).size := Nat.le_of_eq (Plane.size_pack ..).symm
    rw [sadAvg_eq h hdepth, sad_eq h hdepth, checkSadAvg_of_covers hblock hsize]
    cases hchecks : requirePair depth block source reference with
    | error fault => rfl
    | ok _ =>
      obtain ⟨_, hr⟩ := requirePair_eq_ok_iff.mp hchecks
      -- its samples have been checked already
      rw [Outcome.ok_bind, (requirePackedInRange_eq_ok_iff hsize).mpr fun x hx y hy => by
        rw [Plane.packed_pack reference hx hy]
        exact hr.inRange x hx y hy]
      refine congrArg Except.ok (Sad.cost_congr (fun _ _ _ _ => rfl) fun x hx y hy => ?_)
      rw [Plane.packed_pack reference hx hy, Sad.mean_self]
  · rw [sadAvg_of_ne kernels hdepth, sad_of_ne kernels hdepth]

omit hdepth in
/-- **Samples of a second predictor past the block never matter**, neither to the cost nor to the
checks. -/
theorem sadAvg_congr (hblock : KernelKind.sadAvg.supports block = true) {other : Array (Sample s)}
    (hcover : block.area ≤ second.size) (hagree : ∀ i < block.area, other[i]? = second[i]?) :
    kernels.sadAvg depth block source reference other
      = kernels.sadAvg depth block source reference second := by
  by_cases hdepth : depth.storage = s
  · have hread : ∀ i < block.area, other.getD i 0 = second.getD i 0 := by
      intro i hi
      rw [Array.getD_eq_getD_getElem?, Array.getD_eq_getD_getElem?, hagree i hi]
    -- the other one reaches as far as the block, since it agrees on the last sample of it
    have hcover' : block.area ≤ other.size := by
      have hpos : 0 < block.area := Nat.mul_pos block.width_pos block.height_pos
      have hlast := hagree (block.area - 1) (by omega)
      rw [Array.getElem?_eq_getElem (show block.area - 1 < second.size by omega)] at hlast
      have hinside := (Array.getElem?_eq_some_iff.mp hlast).1
      omega
    have hslice : slice other 0 block.area = slice second 0 block.area := by
      rw [slice_eq_map_range (by omega) 0, slice_eq_map_range (by omega) 0]
      refine congrArg Except.ok (List.map_congr_left fun i hi => ?_)
      rw [Nat.zero_add]
      exact hread i (List.mem_range.mp hi)
    have hcost : cost block.width block.height source.pixel
          (fun x y => mean (reference.pixel x y) (packed block.width other x y))
        = cost block.width block.height source.pixel
          fun x y => mean (reference.pixel x y) (packed block.width second x y) := by
      refine Sad.cost_congr (fun _ _ _ _ => rfl) fun x hx y hy => ?_
      have hrow : y * block.width + block.width ≤ block.area := Sad.packed_row_le hy
      rw [packed, packed, hread (y * block.width + x) (by omega)]
    rw [sadAvg_eq h hdepth, sadAvg_eq h hdepth, checkSadAvg_of_covers hblock hcover,
      checkSadAvg_of_covers hblock hcover', hslice, hcost]
  · rw [sadAvg_of_ne kernels hdepth, sadAvg_of_ne kernels hdepth]

end Answers

end Kernels

/-! ## §3. Any level. -/

/-- The number with which a call against an average is answered, and everything that it is: the plain
cost against the averaged block, the reference cost, and the answer once reference and second predictor
have changed places.  The last two say what the blocks are that these calls are about. -/
structure Sad.AnswersAverage (kernels : Kernels) (depth : Depth) (block : BlockSize)
    (source reference : Plane s) (second : Array (Sample s)) (answer : Nat) : Prop where
  average : kernels.sadAvg depth block source reference second = .ok answer
  plain : kernels.sad depth block source (Plane.averaged block reference second) = .ok answer
  conforms : Reference.sadAvg block source reference second = .ok answer
  exchanged : kernels.sadAvg depth block source (Plane.contiguous second block.width)
    (reference.pack block) = .ok answer
  averaged : ∀ x < block.width, ∀ y < block.height, ∃ r p,
    reference.sampleAt x y = .ok r ∧ elementAt second (y * block.width + x) = .ok p ∧
      (Plane.averaged block reference second).sampleAt x y = .ok ((r + p.toNat + 1) / 2)
  packed : ∀ x < block.width, ∀ y < block.height, ∃ r : Sample s,
    reference.sampleAt x y = .ok r.toNat ∧
      elementAt (reference.pack block) (y * block.width + x) = .ok r

/-- **At every level a cost against an average is the plain cost against the averaged block.** -/
theorem averages_cost_as_averaged_blocks (processor : Processor) (level : CpuLevel) :
    ∃ kernels, Kernels.atLevel processor level = .ok kernels ∧
      ∀ (s : Storage) (depth : Depth) (block : BlockSize) (source reference : Plane s),
        KernelKind.sadAvg.supports block = true →
          kernels.sadAvg depth block source reference (reference.pack block)
              = kernels.sad depth block source reference ∧
          ∀ second,
            (∀ run, kernels.admitSadAvg depth block source reference second = .ok run →
              ∃ answer, Sad.AnswersAverage kernels depth block source reference second answer) ∧
            ∀ other, block.area ≤ second.size → (∀ i < block.area, other[i]? = second[i]?) →
              kernels.sadAvg depth block source reference other
                = kernels.sadAvg depth block source reference second := by
  obtain ⟨kernels, hkernels, hselects⟩ := Kernels.atLevel_selects processor level
  refine ⟨kernels, hkernels, ?_⟩
  intro s depth block source reference hblock
  refine ⟨Kernels.sadAvg_pack hselects hblock source reference, ?_⟩
  intro second
  refine ⟨?_, fun other hcover hagree => Kernels.sadAvg_congr hselects hblock hcover hagree⟩
  intro run hrun
  obtain ⟨hdepth, hchecks, _⟩ := (Kernels.admitSadAvg_iff hselects).mp hrun
  obtain ⟨_, hs, hr, hcover, hsecond⟩ := Kernels.checkSadAvg_eq_ok_iff.mp hchecks
  have haveraged := Kernels.admits_averaged hr hsecond
  exact ⟨_, {
    average := Kernels.sadAvg_of_admits hselects hdepth hblock hs hr hcover hsecond
    plain := Kernels.sad_averaged hselects hdepth hs hr hsecond
    conforms := Sad.reference_sadAvg_of_fits hs.fits hr.fits hcover
    exchanged := Kernels.sadAvg_exchanged hselects hdepth hblock hs hr hcover hsecond
    averaged := by
      intro x hx y hy
      have hrow : y * block.width + block.width ≤ block.area := Sad.packed_row_le hy
      refine ⟨_, _, Plane.sampleAt_of_holds hr.holds hx hy, elementAt_eq_getD (by omega) 0, ?_⟩
      rw [Plane.sampleAt_of_holds haveraged.holds hx hy, Plane.pixel_averaged hx hy, Sad.toNat_mean]
      rfl
    packed := by
      intro x hx y hy
      have hrow : y * block.width + block.width ≤ block.area := Sad.packed_row_le hy
      have hsize := Plane.size_pack reference block
      refine ⟨_, Plane.sampleAt_of_holds hr.holds hx hy, ?_⟩
      rw [elementAt_eq_getD (by omega) 0]
      exact congrArg Except.ok (Plane.packed_pack reference hx hy) }⟩

/-- Eight rows of sixteen ten-bit samples, each one sample after the one above it. -/
def slantedRows : Plane .word := ⟨Array.ofFn fun i : Fin 23 => BitVec.ofNat 16 (40 * i), 0, 1⟩

/-- A second predictor for them that is longer than the block. -/
def longPredictor : Array (Sample .word) := Array.replicate 130 7

/-- Overlapping rows against an average, with vector registers and samples past the block. -/
theorem average_of_slantedRows :
    KernelKind.sadAvg.supports .b16x8 = true ∧
    ∃ kernels run, Kernels.atLevel .full .v3 = .ok kernels ∧
      kernels.admitSadAvg .ten .b16x8 slantedRows slantedRows longPredictor = .ok run ∧
      (∃ answer, Sad.AnswersAverage kernels .ten .b16x8 slantedRows slantedRows longPredictor answer) ∧
      BlockSize.area .b16x8 ≤ longPredictor.size ∧
      (∀ i < BlockSize.area .b16x8, (longPredictor.push 9000)[i]? = longPredictor[i]?) ∧
      kernels.sadAvg .ten .b16x8 slantedRows slantedRows (longPredictor.push 9000)
        = kernels.sadAvg .ten .b16x8 slantedRows slantedRows longPredictor := by
  obtain ⟨kernels, hkernels, hcalls⟩ := averages_cost_as_averaged_blocks .full .v3
  have hselects : kernels.Selects _ := Kernels.selects_of_atLevel hkernels
  have hadmits : Kernels.Admits .ten .b16x8 slantedRows := ⟨by decide +kernel, by decide +kernel⟩
  have hcover : BlockSize.area .b16x8 ≤ longPredictor.size := by decide +kernel
  have hsecond : ∀ x < BlockSize.width .b16x8, ∀ y < BlockSize.height .b16x8,
      (packed (BlockSize.width .b16x8) longPredictor x y).toNat ≤ Depth.max .ten := by
    decide +kernel
  have hchecks : Kernels.checkSadAvg .ten .b16x8 slantedRows slantedRows longPredictor = .ok () :=
    Kernels.checkSadAvg_eq_ok_iff.mpr ⟨by decide, hadmits, hadmits, hcover, hsecond⟩
  have hrun := (Kernels.admitSadAvg_iff hselects).mpr ⟨rfl, hchecks, rfl⟩
  have hagree : ∀ i < BlockSize.area .b16x8, (longPredictor.push 9000)[i]? = longPredictor[i]? := by
    intro i hi
    have hinside : i < longPredictor.size := Nat.lt_of_lt_of_le hi hcover
    rw [Array.getElem?_push_lt hinside, Array.getElem?_eq_getElem hinside]
  obtain ⟨_, hanswers⟩ := hcalls .word .ten .b16x8 slantedRows slantedRows (by decide)
  obtain ⟨hadmitted, htail⟩ := hanswers longPredictor
  exact ⟨by decide, kernels, _, hkernels, hrun, hadmitted _ hrun, hcover, hagree,
    htail _ hcover hagree⟩

end PixelKernels
