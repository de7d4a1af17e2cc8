/-
  PixelKernels.Proofs.WidenedSamples
  ──────────────────────────────────
  **THE SAME NUMBERS IN WIDER CELLS COME TO THE SAME RESULTS.**

  Widening keeps every sample of a plane, of a second predictor and of a border
  and changes the cell that it is stored in; at a deeper depth the samples are
  still in range, so all calls are let through again.

    • A widened plane is alike (`Kernels.admitsAlike_widen`), and costs are a
      matter of the numbers only.
    • The taps of a rounded mean are the same numbers
      (`Intra.value_of_averages`).
    • tm is clipped at the maximum of its depth; clipping the deeper block at
      the lower maximum makes up for that (`Intra.value_tm_of_le`).

  Only dc_128 is left out: it reads nothing, and shows the middle of its own
  range.
-/
import PixelKernels.Proofs.LayoutIndependence
import PixelKernels.Proofs.PredictedNumbers

namespace PixelKernels

open Sad (packed)

variable {s t : Storage} {lo hi : Depth} {block : BlockSize}

/-! ## §1. Widened samples. -/

/-- The same number in a cell of another width. -/
def Sample.widen (t : Storage) (v : Sample s) : Sample t := BitVec.setWidth t.bits v

/-- The same numbers in cells of another width, where they were. -/
def Plane.widen (t : Storage) (p : Plane s) : Plane t := ⟨p.data.map (Sample.widen t), p.base, p.stride⟩

/-- The same border in cells of another width. -/
def IntraEdge.widen (t : Storage) (edge : IntraEdge s) : IntraEdge t := edge.map (Sample.widen t)

namespace Depth

theorem storage_bits_le (h : lo.bits < hi.bits) : lo.storage.bits ≤ hi.storage.bits := by
  revert h
  cases lo <;> cases hi <;> decide

theorem max_le_max (h : lo.bits < hi.bits) : lo.max ≤ hi.max := by
  have hlo := lo.max_add_one
  have hhi := hi.max_add_one
  have hpow := Nat.pow_le_pow_right (by decide : 0 < 2) h.le
  rw [Nat.one_shiftLeft] at hlo hhi
  omega

end Depth

/-- **A cell that is wide enough keeps the number.** -/
theorem Sample.toNat_widen (hbits : s.bits ≤ t.bits) (v : Sample s) : (v.widen t).toNat = v.toNat :=
  BitVec.toNat_setWidth_of_le hbits

/-- Reads past the end are zero in either cell. -/
theorem Sample.toNat_getD_map_widen (hbits : s.bits ≤ t.bits) (samples : Array (Sample s)) (i : Nat) :
    ((samples.map (Sample.widen t)).getD i 0).toNat = (samples.getD i 0).toNat := by
  rw [Array.getD_eq_getD_getElem?, Array.getD_eq_getD_getElem?, Array.getElem?_map]
  cases samples[i]? with
  | none => rfl
  | some v => exact toNat_widen hbits v

namespace Plane

/-- Whether a rectangle fits is not a matter of the cells. -/
theorem fits_widen (t : Storage) (p : Plane s) (width height : Nat) :
    (p.widen t).fits width height = p.fits width height := by
  simp only [fits, widen, Array.size_map]

theorem toNat_pixel_widen (hbits : s.bits ≤ t.bits) (p : Plane s) (x y : Nat) :
    ((p.widen t).pixel x y).toNat = (p.pixel x y).toNat :=
  Sample.toNat_getD_map_widen hbits p.data _

end Plane

/-! ## §2. Widened calls. -/

namespace Kernels

section Deeper

variable (hdeeper : lo.bits < hi.bits)
include hdeeper

/-- **A plane that is let through is let through widened, and is alike.** -/
theorem admitsAlike_widen {p : Plane lo.storage} (h : Admits lo block p) :
    AdmitsAlike lo hi block p (p.widen hi.storage) := by
  have hbits := Depth.storage_bits_le hdeeper
  have hwidened : Admits hi block (p.widen hi.storage) := by
    refine ⟨(p.fits_widen _ _ _).trans h.fits, fun x hx y hy => ?_⟩
    rw [Plane.toNat_pixel_widen hbits]
    exact (h.inRange x hx y hy).trans (Depth.max_le_max hdeeper)
  refine ⟨h, hwidened, fun x hx y hy => ?_⟩
  rw [Plane.sampleAt_of_holds h.holds hx hy, Plane.sampleAt_of_holds hwidened.holds hx hy,
    Plane.toNat_pixel_widen hbits]

theorem coversAlike_widen {second : Array (Sample lo.storage)} (hcover : block.area ≤ second.size)
    (hle : ∀ x < block.width, ∀ y < block.height, (packed block.width second x y).toNat ≤ lo.max) :
    CoversAlike lo hi block second (second.map (Sample.widen hi.storage)) := by
  have hsame : ∀ x y, (packed block.width (second.map (Sample.widen hi.storage)) x y).toNat
      = (packed block.width second x y).toNat :=
    fun x y => Sample.toNat_getD_map_widen (Depth.storage_bits_le hdeeper) second _
  refine ⟨hcover, by rwa [Array.size_map], hle, fun x hx y hy => ?_, fun x _ y _ => (hsame x y).symm⟩
  rw [hsame]
  exact (hle x hx y hy).trans (Depth.max_le_max hdeeper)

end Deeper

end Kernels

namespace IntraEdge

variable (hdeeper : lo.bits < hi.bits) {edge : IntraEdge lo.storage} {kernel : IntraKernel} {n : Nat}
  (h : edge.Supplies kernel n lo.max)
include hdeeper h

theorem mapsTo_widen : edge.MapsTo (edge.widen hi.storage) id kernel n :=
  mapsTo_map h fun v _ => v.toNat_widen (Depth.storage_bits_le hdeeper)

/-- A border in range supplies the same kernel widened. -/
theorem supplies_widen : (edge.widen hi.storage).Supplies kernel n hi.max :=
  supplies_map h (fun v _ => v.toNat_widen (Depth.storage_bits_le hdeeper)) fun _ hv =>
    hv.trans (Depth.max_le_max hdeeper)

end IntraEdge

/-! ## §3. Any level. -/

/-- What is let through at the depth `lo` has the same result widened, at the depth `hi`; blocks of tm
are the same once the deeper one is clipped at the maximum of the other. -/
structure Kernels.KeepsNumbers (kernels : Kernels) (lo hi : Depth) (block : BlockSize) : Prop where
  sad : ∀ {source reference : Plane lo.storage} {run : SadFn lo.storage},
    kernels.admitSad lo block source reference = .ok run →
      ∃ answer, kernels.sad lo block source reference = .ok answer ∧
        kernels.sad hi block (source.widen hi.storage) (reference.widen hi.storage) = .ok answer
  sadBounded : ∀ {source reference : Plane lo.storage} {run : SadBoundedFn lo.storage},
    kernels.admitSadBounded lo block source reference = .ok run →
      ∀ bound, ∃ answer, kernels.sadBounded lo block source reference bound = .ok answer ∧
        kernels.sadBounded hi block (source.widen hi.storage) (reference.widen hi.storage) bound
          = .ok answer
  sadX4 : ∀ {source : Plane lo.storage} {references : Vector (Plane lo.storage) 4}
      {run : SadX4Fn lo.storage},
    kernels.admitSadX4 lo block source references = .ok run →
    (∀ p ∈ references, ∀ q ∈ references, p.stride = q.stride) →
      ∃ costs, kernels.sadX4 lo block source references = .ok costs ∧
        kernels.sadX4 hi block (source.widen hi.storage) (references.map (Plane.widen hi.storage))
          = .ok costs
  sadAvg : ∀ {source reference : Plane lo.storage} {second : Array (Sample lo.storage)}
      {run : SadAvgFn lo.storage},
    kernels.admitSadAvg lo block source reference second = .ok run →
      ∃ answer, kernels.sadAvg lo block source reference second = .ok answer ∧
        kernels.sadAvg hi block (source.widen hi.storage) (reference.widen hi.storage)
          (second.map (Sample.widen hi.storage)) = .ok answer
  averages : ∀ {mode : IntraMode} {edge : IntraEdge lo.storage},
    (edge.kernelFor mode).averages = true → (KernelKind.intra .dc).supports block = true →
    edge.Supplies (edge.kernelFor mode) block.width lo.max →
      ∃ cells, kernels.Predicts lo block mode edge cells ∧
        kernels.Predicts hi block mode (edge.widen hi.storage) cells
  tm : ∀ {edge : IntraEdge lo.storage}, (KernelKind.intra .dc).supports block = true →
    edge.Supplies .tm block.width lo.max →
      ∃ cells, kernels.Predicts hi block .tm (edge.widen hi.storage) cells ∧
        kernels.Predicts lo block .tm edge fun r c => min (cells r c) lo.max

namespace Kernels

variable {kernels : Kernels} {processor : Processor}

theorem keepsNumbers (h : kernels.Selects processor) (hdeeper : lo.bits < hi.bits) (block : BlockSize) :
    kernels.KeepsNumbers lo hi block where
  sad := by
    intro source reference run hrun
    obtain ⟨_, hs, hr⟩ := admits_of_admitSad h hrun
    exact sad_alike h rfl rfl (admitsAlike_widen hdeeper hs) (admitsAlike_widen hdeeper hr)
  sadBounded := by
    intro source reference run hrun bound
    obtain ⟨_, hblock, hs, hr⟩ := admits_of_admitSadBounded h hrun
    exact sadBounded_alike h rfl rfl (admitsAlike_widen hdeeper hs) hblock
      (admitsAlike_widen hdeeper hr) bound
  sadX4 := by
    intro source references run hrun hstride
    obtain ⟨_, hs, hr⟩ := admits_of_admitSadX4 h hrun
    refine sadX4_alike h rfl rfl (admitsAlike_widen hdeeper hs) hstride ?_ fun i hi => ?_
    · simp only [Vector.mem_map, forall_exists_index, and_imp, forall_apply_eq_imp_iff₂]
      exact hstride
    · rw [Vector.getElem_map]
      exact admitsAlike_widen hdeeper (hr _ (Vector.getElem_mem hi))
  sadAvg := by
    intro source reference second run hrun
    obtain ⟨_, hblock, hs, hr, hcover, hle⟩ := admits_of_admitSadAvg h hrun
    exact sadAvg_alike h rfl rfl (admitsAlike_widen hdeeper hs) hblock (admitsAlike_widen hdeeper hr)
      (coversAlike_widen hdeeper hcover hle)
  averages := by
    intro mode edge havg hblock hsupplies
    have hwidened := predicts_map h rfl hblock (IntraEdge.supplies_widen hdeeper hsupplies)
    refine ⟨_, predicts_of_supplies h rfl hblock hsupplies, hwidened.congr fun r hr c hc => ?_⟩
    exact Intra.value_of_averages (IntraEdge.mapsTo_widen hdeeper hsupplies) havg hr hc
  tm := by
    intro edge hblock hsupplies
    have hwidened := IntraEdge.supplies_widen hdeeper hsupplies
    refine ⟨_, predicts_of_supplies h rfl hblock hwidened,
      (predicts_of_supplies h rfl hblock hsupplies).congr fun r hr c hc => ?_⟩
    exact Intra.value_tm_of_le (IntraEdge.mapsTo_widen hdeeper hsupplies)
      (Depth.max_le_max hdeeper) hr hc

end Kernels

/-- **At every level the same numbers have the same costs and the same predictions at every depth that
has room for them**, in whichever cells they are stored. -/
theorem depths_agree_on_equal_numbers (processor : Processor) (level : CpuLevel) (lo hi : Depth)
    (hdeeper : lo.bits < hi.bits) :
    ∃ kernels, Kernels.atLevel processor level = .ok kernels ∧
      ∀ block, kernels.KeepsNumbers lo hi block := by
  obtain ⟨kernels, hkernels, hselects⟩ := Kernels.atLevel_selects processor level
  exact ⟨kernels, hkernels, Kernels.keepsNumbers hselects hdeeper⟩

/-- A border that is bright on both sides of a dark corner. -/
def glowingBorder : IntraEdge .byte := ⟨0, Array.replicate 8 250, Array.replicate 8 250, true, true⟩

theorem glowingBorder_supplies : glowingBorder.Supplies .tm 8 Depth.eight.max where
  above_size := by decide
  left_size := by decide
  above_le := by decide
  left_le := by decide
  corner_le := by decide

/-- Overlapping rows cost the same in words, and the tm block that is clipped at 255 in bytes is the
one that twelve bits have room for, clipped at 255. -/
theorem twelve_bits_of_bytes :
    Depth.eight.bits < Depth.twelve.bits ∧
    ∃ kernels, Kernels.atLevel .full .v3 = .ok kernels ∧
      (∃ run, kernels.admitSad .eight .b16x16 slidingRows darkRows = .ok run ∧
        ∃ answer, kernels.sad .eight .b16x16 slidingRows darkRows = .ok answer ∧
          kernels.sad .twelve .b16x16 (slidingRows.widen .word) (darkRows.widen .word) = .ok answer) ∧
      ∃ cells, kernels.Predicts .twelve .b8x8 .tm (glowingBorder.widen .word) cells ∧
        kernels.Predicts .eight .b8x8 .tm glowingBorder fun r c => min (cells r c) 255 := by
  obtain ⟨kernels, hkernels, hkeeps⟩ := depths_agree_on_equal_numbers .full .v3 .eight .twelve (by decide)
  have hselects : kernels.Selects _ := Kernels.selects_of_atLevel hkernels
  have hdark : Kernels.Admits .eight .b16x16 darkRows := ⟨rfl, Kernels.inRange_eight _⟩
  have hrun := (Kernels.admitSad_iff hselects).mpr
    ⟨rfl, Kernels.requirePair_eq_ok_iff.mpr ⟨slidingRows_admitted, hdark⟩, rfl⟩
  exact ⟨by decide, kernels, hkernels, ⟨_, hrun, (hkeeps .b16x16).sad hrun⟩,
    (hkeeps .b8x8).tm (by decide) glowingBorder_supplies⟩

end PixelKernels
