/-
  PixelKernels.Proofs.BlockDistances
  ──────────────────────────────────
  **COSTS ARE DISTANCES BETWEEN BLOCKS.**

  A search that prunes by costs relies on three laws of them: a cost is the
  same in both directions, it is zero exactly between blocks that show the same
  samples, and a detour over a third block never costs less than the direct
  way.

    • The difference of two samples, taken as the sum of two differences of
      which one is cut off at zero, has all three (`Sad.Portable.distance_comm`,
      `distance_eq_zero_iff`, `distance_triangle`).
    • A sum over a block passes them on (`Sad.cost_comm`, `cost_eq_zero_iff`,
      `cost_triangle`), since no term of it can make up for another.
    • Every entry point answers with such a sum, over the natural numbers and
      inside 32 bits, so the laws hold of its answers, whichever kernel a level
      selects.
-/
import PixelKernels.Proofs.LayoutIndependence

namespace PixelKernels

open Finset
open Sad (cost)

variable {s : Storage} {depth : Depth} {block : BlockSize}

/-! ## §1. Samples. -/

namespace Sad.Portable

theorem distance_comm (a b : Nat) : distance a b = distance b a := by
  unfold distance
  omega

theorem distance_eq_zero_iff {a b : Nat} : distance a b = 0 ↔ a = b := by
  unfold distance
  omega

theorem distance_triangle (a b c : Nat) : distance a c ≤ distance a b + distance b c := by
  unfold distance
  omega

end Sad.Portable

/-! ## §2. Blocks. -/

namespace Sad

variable {width height : Nat}

theorem cost_comm (width height : Nat) (f g : Nat → Nat → Sample s) :
    cost width height f g = cost width height g f := by
  unfold cost
  refine sum_congr rfl fun y _ => sum_congr rfl fun x _ => ?_
  exact Portable.distance_comm _ _

/-- **A sum of distances is zero only if all of them are.** -/
theorem cost_eq_zero_iff {f g : Nat → Nat → Sample s} :
    cost width height f g = 0 ↔ ∀ x < width, ∀ y < height, (f x y).toNat = (g x y).toNat := by
  simp only [cost, sum_eq_zero_iff, mem_range, Portable.distance_eq_zero_iff]
  exact ⟨fun h x hx y hy => h y hy x hx, fun h y hy x hx => h x hx y hy⟩

theorem cost_triangle (width height : Nat) (f g h : Nat → Nat → Sample s) :
    cost width height f h ≤ cost width height f g + cost width height g h := by
  unfold cost
  rw [← sum_add_distrib]
  refine sum_le_sum fun y _ => ?_
  rw [← sum_add_distrib]
  exact sum_le_sum fun x _ => Portable.distance_triangle _ _ _

end Sad

/-! ## §3. Any level. -/

namespace Kernels

/-- Planes that are let through are alike exactly if they cost nothing against each other. -/
theorem cost_eq_zero_iff_alike {a b : Plane s} (ha : Admits depth block a) (hb : Admits depth block b) :
    cost block.width block.height a.pixel b.pixel = 0 ↔ a.Alike block b := by
  rw [Sad.cost_eq_zero_iff]
  unfold Plane.Alike
  refine forall₂_congr fun x hx => forall₂_congr fun y hy => ?_
  rw [Plane.sampleAt_of_holds ha.holds hx hy, Plane.sampleAt_of_holds hb.holds hx hy, Except.ok.injEq]

/-- The laws of a distance, for costs between planes that are let through. -/
structure MeasuresDistance (kernels : Kernels) (s : Storage) (depth : Depth) (block : BlockSize) :
    Prop where
  /-- The other direction is let through too, and costs the same. -/
  symmetric : ∀ {a b : Plane s} {run : SadFn s}, kernels.admitSad depth block a b = .ok run →
    ∃ cost, kernels.sad depth block a b = .ok cost ∧ kernels.sad depth block b a = .ok cost
  /-- Only planes that show the same block cost nothing. -/
  definite : ∀ {a b : Plane s} {run : SadFn s}, kernels.admitSad depth block a b = .ok run →
    ∃ cost, kernels.sad depth block a b = .ok cost ∧ (cost = 0 ↔ a.Alike block b)
  /-- The direct way is let through where the two parts of a detour are, and costs no more. -/
  triangle : ∀ {a b c : Plane s} {run run' : SadFn s},
    kernels.admitSad depth block a b = .ok run → kernels.admitSad depth block b c = .ok run' →
      ∃ first second direct, kernels.sad depth block a b = .ok first ∧
        kernels.sad depth block b c = .ok second ∧ kernels.sad depth block a c = .ok direct ∧
        direct ≤ first + second

theorem measuresDistance {kernels : Kernels} {processor : Processor} (h : kernels.Selects processor)
    (s : Storage) (depth : Depth) (block : BlockSize) : kernels.MeasuresDistance s depth block where
  symmetric := by
    intro a b run hrun
    obtain ⟨hdepth, ha, hb⟩ := admits_of_admitSad h hrun
    exact ⟨_, (sad_eq_ok_iff h hdepth).mpr ⟨⟨ha, hb⟩, rfl⟩,
      (sad_eq_ok_iff h hdepth).mpr ⟨⟨hb, ha⟩, Sad.cost_comm ..⟩⟩
  definite := by
    intro a b run hrun
    obtain ⟨hdepth, ha, hb⟩ := admits_of_admitSad h hrun
    exact ⟨_, (sad_eq_ok_iff h hdepth).mpr ⟨⟨ha, hb⟩, rfl⟩, cost_eq_zero_iff_alike ha hb⟩
  triangle := by
    intro a b c run run' hrun hrun'
    obtain ⟨hdepth, ha, hb⟩ := admits_of_admitSad h hrun
    obtain ⟨_, _, hc⟩ := admits_of_admitSad h hrun'
    exact ⟨_, _, _, (sad_eq_ok_iff h hdepth).mpr ⟨⟨ha, hb⟩, rfl⟩,
      (sad_eq_ok_iff h hdepth).mpr ⟨⟨hb, hc⟩, rfl⟩, (sad_eq_ok_iff h hdepth).mpr ⟨⟨ha, hc⟩, rfl⟩,
      Sad.cost_triangle ..⟩

end Kernels

/-- **At every level costs are distances between the blocks that their planes show.** -/
theorem costs_measure_distance (processor : Processor) (level : CpuLevel) :
    ∃ kernels, Kernels.atLevel processor level = .ok kernels ∧
      ∀ (s : Storage) (depth : Depth) (block : BlockSize), kernels.MeasuresDistance s depth block := by
  obtain ⟨kernels, hkernels, hselects⟩ := Kernels.atLevel_selects processor level
  exact ⟨kernels, hkernels, fun s depth block => Kernels.measuresDistance hselects s depth block⟩

/-- Overlapping rows of the brightest twelve-bit samples, the very last of them one darker. -/
def chippedBlock : Plane .word := ⟨(Array.replicate 22 4095).push 4094, 0, 1⟩

/-- One row of the brightest twelve-bit samples, read over and over. -/
def brightestRow : Plane .word := ⟨Array.replicate 16 4095, 0, 0⟩

/-- One row of the darkest samples, read over and over. -/
def darkestRow : Plane .word := ⟨Array.replicate 16 0, 0, 0⟩

/-- One unit in one sample is seen in either direction, and a detour over the darkest block costs no
less. -/
theorem chippedBlock_is_apart :
    ∃ kernels run run', Kernels.atLevel .full .v3 = .ok kernels ∧
      kernels.admitSad .twelve .b16x8 chippedBlock darkestRow = .ok run ∧
      kernels.admitSad .twelve .b16x8 darkestRow brightestRow = .ok run' ∧
      (∃ first second direct, kernels.sad .twelve .b16x8 chippedBlock darkestRow = .ok first ∧
        kernels.sad .twelve .b16x8 darkestRow brightestRow = .ok second ∧
        kernels.sad .twelve .b16x8 chippedBlock brightestRow = .ok direct ∧ direct ≤ first + second) ∧
      ∃ run'' cost, kernels.admitSad .twelve .b16x8 chippedBlock brightestRow = .ok run'' ∧
        kernels.sad .twelve .b16x8 chippedBlock brightestRow = .ok cost ∧ cost ≠ 0 := by
  obtain ⟨kernels, hkernels, hmeasures⟩ := costs_measure_distance .full .v3
  have hlaws := hmeasures .word .twelve .b16x8
  have hselects : kernels.Selects _ := Kernels.selects_of_atLevel hkernels
  have hchipped : Kernels.Admits .twelve .b16x8 chippedBlock := ⟨rfl, by decide +kernel⟩
  have hbright : Kernels.Admits .twelve .b16x8 brightestRow := ⟨rfl, by decide +kernel⟩
  have hdark : Kernels.Admits .twelve .b16x8 darkestRow := ⟨rfl, by decide +kernel⟩
  have hrun := Kernels.admitSad_of_admits hselects rfl hchipped hdark
  have hrun' := Kernels.admitSad_of_admits hselects rfl hdark hbright
  have hrun'' := Kernels.admitSad_of_admits hselects rfl hchipped hbright
  obtain ⟨cost, hcost, hzero⟩ := hlaws.definite hrun''
  have hapart : ¬ chippedBlock.Alike .b16x8 brightestRow := by decide +kernel
  exact ⟨kernels, _, _, hkernels, hrun, hrun', hlaws.triangle hrun hrun', _, cost, hrun'', hcost,
    fun h => hapart (hzero.mp h)⟩

end PixelKernels
