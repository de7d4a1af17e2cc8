/-
  PixelKernels.Proofs.LayoutIndependence
  ──────────────────────────────────────
  **A COST DEPENDS ON WHAT ITS PLANES SHOW, NOT ON WHERE THAT LIES.**

  Two planes are alike on a block if every sample of it reads the same
  (`Plane.Alike`); their buffers, origins and strides may be anything, and they
  need not even share a cell.

    • All costs of a block and of its first rows are then the same
      (`cost_of_alike`), and every entry point answers with such a cost, so two
      calls on planes that are alike have one answer (`Kernels.sad_alike` and
      its companions).  The bounded walk stops at the same row.
    • `Plane.bottomUp` starts at the last row and negates the stride.  It is let
      through wherever the plane is (`Kernels.Admits.bottomUp`), and shows the
      rows in reverse (`Plane.pixel_bottomUp`), which no sum over all rows can
      tell (`Sad.cost_bottomUp`).
-/
import PixelKernels.Proofs.BatchedCosts
import PixelKernels.Proofs.BoundedCosts
import PixelKernels.Proofs.PackedBlocks

namespace PixelKernels

open Finset
open Sad (cost mean packed)

variable {s t : Storage} {depth other : Depth} {block : BlockSize}

/-! ## §1. Planes that show the same block. -/

/-- Two planes show the same numbers in a block, wherever and in whichever cells these lie. -/
def Plane.Alike (block : BlockSize) (p : Plane s) (q : Plane t) : Prop :=
  ∀ x < block.width, ∀ y < block.height, p.sampleAt x y = q.sampleAt x y

instance (p : Plane s) (q : Plane t) : Decidable (p.Alike block q) :=
  inferInstanceAs (Decidable (∀ x < block.width, ∀ y < block.height, _))

/-- The cost is a matter of the numbers, not of the cells that they are stored in. -/
theorem Sad.cost_eq_of_toNat {width height : Nat} {f g : Nat → Nat → Sample s}
    {f' g' : Nat → Nat → Sample t}
    (hf : ∀ x < width, ∀ y < height, (f x y).toNat = (f' x y).toNat)
    (hg : ∀ x < width, ∀ y < height, (g x y).toNat = (g' x y).toNat) :
    cost width height f g = cost width height f' g' := by
  unfold cost
  refine sum_congr rfl fun y hy => sum_congr rfl fun x hx => ?_
  have hx := mem_range.mp hx
  have hy := mem_range.mp hy
  rw [hf x hx y hy, hg x hx y hy]

namespace Kernels

/-- Two planes that are let through, each at its own depth, and that show the same block. -/
structure AdmitsAlike (depth other : Depth) (block : BlockSize) (p : Plane s) (q : Plane t) :
    Prop where
  left : Admits depth block p
  right : Admits other block q
  alike : p.Alike block q

theorem AdmitsAlike.toNat_pixel {p : Plane s} {q : Plane t} (h : AdmitsAlike depth other block p q)
    {x y : Nat} (hx : x < block.width) (hy : y < block.height) :
    (p.pixel x y).toNat = (q.pixel x y).toNat := by
  have hread := h.alike x hx y hy
  rw [Plane.sampleAt_of_holds h.left.holds hx hy, Plane.sampleAt_of_holds h.right.holds hx hy] at hread
  exact Except.ok.inj hread

/-- A plane shows the same block as its packed copy. -/
theorem alike_contiguous_pack {p : Plane s} (h : Admits depth block p) :
    p.Alike block (Plane.contiguous (p.pack block) block.width) := by
  have hcopy : Admits depth block (Plane.contiguous (p.pack block) block.width) :=
    admits_contiguous_pack h.inRange
  intro x hx y hy
  rw [Plane.sampleAt_of_holds h.holds hx hy, Plane.sampleAt_of_holds hcopy.holds hx hy,
    Plane.pixel_contiguous block.width_le, Plane.packed_pack p hx hy]

/-- **Planes that are alike cost the same, and so do their first rows.** -/
theorem cost_of_alike {source reference : Plane s} {source' reference' : Plane t}
    (hsource : AdmitsAlike depth other block source source')
    (hreference : AdmitsAlike depth other block reference reference') {rows : Nat}
    (hrows : rows ≤ block.height) :
    cost block.width rows source.pixel reference.pixel
      = cost block.width rows source'.pixel reference'.pixel :=
  Sad.cost_eq_of_toNat (fun _ hx _ hy => hsource.toNat_pixel hx (Nat.lt_of_lt_of_le hy hrows))
    fun _ hx _ hy => hreference.toNat_pixel hx (Nat.lt_of_lt_of_le hy hrows)

/-- Two second predictors that are let through, each at its own depth, and that hold the same block. -/
structure CoversAlike (depth other : Depth) (block : BlockSize) (second : Array (Sample s))
    (second' : Array (Sample t)) : Prop where
  left_size : block.area ≤ second.size
  right_size : block.area ≤ second'.size
  left_le : ∀ x < block.width, ∀ y < block.height, (packed block.width second x y).toNat ≤ depth.max
  right_le : ∀ x < block.width, ∀ y < block.height,
    (packed block.width second' x y).toNat ≤ other.max
  alike : ∀ x < block.width, ∀ y < block.height,
    (packed block.width second x y).toNat = (packed block.width second' x y).toNat

/-! ## §2. Two calls with one answer. -/

section Answers

variable {kernels : Kernels} {processor : Processor} (h : kernels.Selects processor)
  (hdepth : depth.storage = s) (hother : other.storage = t) {source reference : Plane s}
  {source' reference' : Plane t} (hsource : AdmitsAlike depth other block source source')
include h hdepth hother hsource

theorem sad_alike (hreference : AdmitsAlike depth other block reference reference') :
    ∃ answer, kernels.sad depth block source reference = .ok answer ∧
      kernels.sad other block source' reference' = .ok answer := by
  have hcost := cost_of_alike hsource hreference (Nat.le_refl block.height)
  exact ⟨_, (sad_eq_ok_iff h hdepth).mpr ⟨⟨hsource.left, hreference.left⟩, rfl⟩,
    (sad_eq_ok_iff h hother).mpr ⟨⟨hsource.right, hreference.right⟩, hcost.symm⟩⟩

/-- **A bounded cost stops at the same row**, so it is the same number even where it is cut short. -/
theorem sadBounded_alike (hblock : KernelKind.sadBounded.supports block = true)
    (hreference : AdmitsAlike depth other block reference reference') (bound : Nat) :
    ∃ answer, kernels.sadBounded depth block source reference bound = .ok answer ∧
      kernels.sadBounded other block source' reference' bound = .ok answer := by
  have hchecks : checkSadBounded depth block source reference = .ok () :=
    checkSadBounded_eq_ok_iff.mpr ⟨hblock, hsource.left, hreference.left⟩
  have hchecks' : checkSadBounded other block source' reference' = .ok () :=
    checkSadBounded_eq_ok_iff.mpr ⟨hblock, hsource.right, hreference.right⟩
  rw [sadBounded, admitSadBounded_eq h hdepth, hchecks, sadBounded, admitSadBounded_eq h hother,
    hchecks']
  by_cases hwide : runsWide processor block = true
  · -- the wide kernel never stops early
    have hanswer := run_sad processor hsource.left hreference.left
    have hanswer' := run_sad processor hsource.right hreference.right
    rw [← cost_of_alike hsource hreference (Nat.le_refl _), if_pos hwide] at hanswer'
    rw [if_pos hwide] at hanswer
    rw [if_pos hwide, if_pos hwide]
    exact ⟨_, hanswer, hanswer'⟩
  · rw [if_neg hwide, if_neg hwide]
    obtain ⟨k, hstops, hanswer⟩ := Sad.Portable.sadBounded_of_fits block.width_le block.height_le
      hsource.left.fits hreference.left.fits bound
    obtain ⟨k', hstops', hanswer'⟩ := Sad.Portable.sadBounded_of_fits block.width_le block.height_le
      hsource.right.fits hreference.right.fits bound
    -- both walks look at the same running sums
    have hsame := hstops.congr fun rows hrows =>
      cost_of_alike hsource hreference (hrows.trans hstops.le_height)
    obtain rfl : k = k' := hsame.unique hstops'
    rw [cost_of_alike hsource hreference hstops.le_height] at hanswer
    exact ⟨_, hanswer, hanswer'⟩

theorem sadX4_alike {references : Vector (Plane s) 4} {references' : Vector (Plane t) 4}
    (hstride : ∀ p ∈ references, ∀ q ∈ references, p.stride = q.stride)
    (hstride' : ∀ p ∈ references', ∀ q ∈ references', p.stride = q.stride)
    (hreferences : ∀ i (_ : i < 4), AdmitsAlike depth other block references[i] references'[i]) :
    ∃ costs, kernels.sadX4 depth block source references = .ok costs ∧
      kernels.sadX4 other block source' references' = .ok costs := by
  -- a batch is its four single calls, and each of those has one answer
  choose answer hanswer hanswer' using fun i hi =>
    sad_alike h hdepth hother hsource (hreferences i hi)
  refine ⟨Vector.ofFn fun i => answer i i.isLt, (sadX4_eq_ok_iff h hstride).mpr ?_,
    (sadX4_eq_ok_iff h hstride').mpr ?_⟩
  · intro i hi
    rw [Vector.getElem_ofFn]
    exact hanswer i hi
  · intro i hi
    rw [Vector.getElem_ofFn]
    exact hanswer' i hi

theorem sadAvg_alike (hblock : KernelKind.sadAvg.supports block = true)
    (hreference : AdmitsAlike depth other block reference reference') {second : Array (Sample s)}
    {second' : Array (Sample t)} (hsecond : CoversAlike depth other block second second') :
    ∃ answer, kernels.sadAvg depth block source reference second = .ok answer ∧
      kernels.sadAvg other block source' reference' second' = .ok answer := by
  refine ⟨_, sadAvg_of_admits h hdepth hblock hsource.left hreference.left hsecond.left_size
    hsecond.left_le, ?_⟩
  rw [sadAvg_of_admits h hother hblock hsource.right hreference.right hsecond.right_size
    hsecond.right_le]
  refine congrArg Except.ok (Sad.cost_eq_of_toNat (fun x hx y hy => ?_) fun x hx y hy => ?_)
  · exact (hsource.toNat_pixel hx hy).symm
  · rw [Sad.toNat_mean, Sad.toNat_mean, hreference.toNat_pixel hx hy, hsecond.alike x hx y hy]

end Answers

end Kernels

/-! ## §3. The same block from below. -/

namespace Plane

/-- The plane whose first row is the last row of the block, and whose rows follow upwards. -/
def bottomUp (block : BlockSize) (p : Plane s) : Plane s :=
  ⟨p.data, (signed p.base + (block.height - 1 : Nat) * p.stride).toNat, -p.stride⟩

section BottomUp

variable {p : Plane s} (h : p.Holds block.width block.height)
include h

/-- The last row starts where the plane is read from below. -/
theorem signed_base_bottomUp : signed (p.bottomUp block).base = p.position 0 (block.height - 1) := by
  have hlast : block.height - 1 < block.height := Nat.sub_one_lt block.height_pos.ne'
  have hstart := h.start _ hlast
  have hstop := h.stop _ hlast
  have hbase : (p.bottomUp block).base = (p.position 0 (block.height - 1)).toNat := by
    simp [bottomUp, position]
  rw [hbase, signed_of_lt (by omega), Int.toNat_of_nonneg hstart]

/-- **Read from below, the rows come in reverse.** -/
theorem position_bottomUp {y : Nat} (x : Nat) (hy : y < block.height) :
    (p.bottomUp block).position x y = p.position x (block.height - 1 - y) := by
  have hrows : ((block.height - 1 - y : Nat) : Int) = (block.height - 1 : Nat) - y := by omega
  have hback : (y : Int) * (p.bottomUp block).stride = -(y * p.stride) := Int.mul_neg _ _
  rw [position, signed_base_bottomUp h, hback, position, position, hrows, Int.sub_mul]
  omega

theorem pixel_bottomUp {y : Nat} (x : Nat) (hy : y < block.height) :
    (p.bottomUp block).pixel x y = p.pixel x (block.height - 1 - y) := by
  rw [pixel, position_bottomUp h x hy]
  rfl

/-- **A block lies inside the buffer from below if it does from above.** -/
theorem Holds.bottomUp : (p.bottomUp block).Holds block.width block.height where
  rows_lt := h.rows_lt
  rise := by
    intro y hy
    have hback : (y : Int) * (p.bottomUp block).stride = -(y * p.stride) := Int.mul_neg _ _
    have hfirst := signed_range p.base
    have hstart := h.start y hy
    have hstop := h.stop y hy
    have hzero := h.stop 0 (by omega)
    have hrise := h.rise y hy
    simp only [position] at hstart hstop hzero
    rw [hback]
    omega
  start := by
    intro y hy
    rw [position_bottomUp h 0 hy]
    exact h.start _ (by omega)
  room := by
    intro y hy
    rw [position_bottomUp h 0 hy]
    exact h.room _ (by omega)
  stop := by
    intro y hy
    rw [position_bottomUp h 0 hy]
    exact h.stop _ (by omega)

end BottomUp

end Plane

/-- **No sum over all rows knows in which order they come.** -/
theorem Sad.cost_reverse (width height : Nat) (f g : Nat → Nat → Sample s) :
    cost width height (fun x y => f x (height - 1 - y)) (fun x y => g x (height - 1 - y))
      = cost width height f g :=
  sum_range_reflect (fun y => ∑ x ∈ range width, Portable.distance (f x y).toNat (g x y).toNat) height

/-- A packed block with its rows in reverse. -/
def Sad.bottomUp (block : BlockSize) (second : Array (Sample s)) : Array (Sample s) :=
  Sad.pack block.width block.height fun x y => packed block.width second x (block.height - 1 - y)

theorem Sad.packed_bottomUp (second : Array (Sample s)) {x y : Nat} (hx : x < block.width)
    (hy : y < block.height) :
    packed block.width (Sad.bottomUp block second) x y
      = packed block.width second x (block.height - 1 - y) :=
  Sad.packed_pack _ hx hy

namespace Kernels

/-- **What is let through is let through from below.** -/
theorem Admits.bottomUp {p : Plane s} (h : Admits depth block p) :
    Admits depth block (p.bottomUp block) where
  fits := by
    have hw := block.width_le
    have hh := block.height_le
    exact Plane.fits_of_holds (by omega) (by omega) block.height_pos h.holds.bottomUp
  inRange := by
    intro x hx y hy
    rw [Plane.pixel_bottomUp h.holds x hy]
    exact h.inRange x hx _ (by omega)

section BottomUp

variable {kernels : Kernels} {processor : Processor} (h : kernels.Selects processor)
  (hdepth : depth.storage = s) {source reference : Plane s} (hs : Admits depth block source)
include h hdepth hs

theorem sad_bottomUp (hr : Admits depth block reference) :
    ∃ answer, kernels.sad depth block source reference = .ok answer ∧
      kernels.sad depth block (source.bottomUp block) (reference.bottomUp block) = .ok answer := by
  refine ⟨_, (sad_eq_ok_iff h hdepth).mpr ⟨⟨hs, hr⟩, rfl⟩,
    (sad_eq_ok_iff h hdepth).mpr ⟨⟨hs.bottomUp, hr.bottomUp⟩, ?_⟩⟩
  rw [← Sad.cost_reverse block.width block.height source.pixel]
  exact Sad.cost_congr (fun x _ _ hy => Plane.pixel_bottomUp hs.holds x hy)
    fun x _ _ hy => Plane.pixel_bottomUp hr.holds x hy

theorem sadX4_bottomUp {references : Vector (Plane s) 4}
    (hstride : ∀ p ∈ references, ∀ q ∈ references, p.stride = q.stride)
    (hr : ∀ reference ∈ references, Admits depth block reference) :
    ∃ costs, kernels.sadX4 depth block source references = .ok costs ∧
      kernels.sadX4 depth block (source.bottomUp block) (references.map (Plane.bottomUp block))
        = .ok costs := by
  have hnegated : ∀ p ∈ references.map (Plane.bottomUp block),
      ∀ q ∈ references.map (Plane.bottomUp block), p.stride = q.stride := by
    simp only [Vector.mem_map, forall_exists_index, and_imp, forall_apply_eq_imp_iff₂]
    intro p hp q hq
    exact congrArg (- ·) (hstride p hp q hq)
  -- a batch is its four single calls, and each of those may be turned round
  choose answer hanswer hanswer' using fun i (hi : i < 4) =>
    sad_bottomUp h hdepth hs (hr references[i] (Vector.getElem_mem hi))
  refine ⟨Vector.ofFn fun i => answer i i.isLt, (sadX4_eq_ok_iff h hstride).mpr ?_,
    (sadX4_eq_ok_iff h hnegated).mpr ?_⟩
  · intro i hi
    rw [Vector.getElem_ofFn]
    exact hanswer i hi
  · intro i hi
    rw [Vector.getElem_ofFn, Vector.getElem_map]
    exact hanswer' i hi

theorem sadAvg_bottomUp (hblock : KernelKind.sadAvg.supports block = true)
    (hr : Admits depth block reference) {second : Array (Sample s)} (hcover : block.area ≤ second.size)
    (hsecond : ∀ x < block.width, ∀ y < block.height,
      (packed block.width second x y).toNat ≤ depth.max) :
    ∃ answer, kernels.sadAvg depth block source reference second = .ok answer ∧
      kernels.sadAvg depth block (source.bottomUp block) (reference.bottomUp block)
        (Sad.bottomUp block second) = .ok answer := by
  have hcover' : block.area ≤ (Sad.bottomUp block second).size := Nat.le_of_eq (Sad.size_pack ..).symm
  have hsecond' : ∀ x < block.width, ∀ y < block.height,
      (packed block.width (Sad.bottomUp block second) x y).toNat ≤ depth.max := by
    intro x hx y hy
    rw [Sad.packed_bottomUp second hx hy]
    exact hsecond x hx _ (by omega)
  refine ⟨_, sadAvg_of_admits h hdepth hblock hs hr hcover hsecond, ?_⟩
  rw [sadAvg_of_admits h hdepth hblock hs.bottomUp hr.bottomUp hcover' hsecond',
    ← Sad.cost_reverse block.width block.height source.pixel]
  refine congrArg Except.ok (Sad.cost_congr ?_ ?_)
  · intro x _ y hy
    exact Plane.pixel_bottomUp hs.holds x hy
  · intro x hx y hy
    rw [Plane.pixel_bottomUp hr.holds x hy, Sad.packed_bottomUp second hx hy]

end BottomUp

/-! ## §4. Any level. -/

/-- Two calls that are let through have one answer if their planes are alike: source and source,
reference and reference, and the second predictors where there are any. -/
structure SeesBlocksOnly (kernels : Kernels) (s : Storage) (depth : Depth) (block : BlockSize) :
    Prop where
  sad : ∀ {source source' reference reference' : Plane s} {run run' : SadFn s},
    kernels.admitSad depth block source reference = .ok run →
    kernels.admitSad depth block source' reference' = .ok run' →
    source.Alike block source' → reference.Alike block reference' →
      ∃ answer, kernels.sad depth block source reference = .ok answer ∧
        kernels.sad depth block source' reference' = .ok answer
  sadBounded : ∀ {source source' reference reference' : Plane s} {run run' : SadBoundedFn s},
    kernels.admitSadBounded depth block source reference = .ok run →
    kernels.admitSadBounded depth block source' reference' = .ok run' →
    source.Alike block source' → reference.Alike block reference' →
      ∀ bound, ∃ answer, kernels.sadBounded depth block source reference bound = .ok answer ∧
        kernels.sadBounded depth block source' reference' bound = .ok answer
  sadX4 : ∀ {source source' : Plane s} {references references' : Vector (Plane s) 4}
      {run run' : SadX4Fn s},
    kernels.admitSadX4 depth block source references = .ok run →
    kernels.admitSadX4 depth block source' references' = .ok run' →
    (∀ p ∈ references, ∀ q ∈ references, p.stride = q.stride) →
    (∀ p ∈ references', ∀ q ∈ references', p.stride = q.stride) →
    source.Alike block source' → (∀ i (_ : i < 4), references[i].Alike block references'[i]) →
      ∃ costs, kernels.sadX4 depth block source references = .ok costs ∧
        kernels.sadX4 depth block source' references' = .ok costs
  sadAvg : ∀ {source source' reference reference' : Plane s} {second second' : Array (Sample s)}
      {run run' : SadAvgFn s},
    kernels.admitSadAvg depth block source reference second = .ok run →
    kernels.admitSadAvg depth block source' reference' second' = .ok run' →
    source.Alike block source' → reference.Alike block reference' →
    (∀ i < block.area, second[i]? = second'[i]?) →
      ∃ answer, kernels.sadAvg depth block source reference second = .ok answer ∧
        kernels.sadAvg depth block source' reference' second' = .ok answer

/-- A call that is let through has the same answer with all its planes read from below. -/
structure SeesNoDirection (kernels : Kernels) (s : Storage) (depth : Depth) (block : BlockSize) :
    Prop where
  sad : ∀ {source reference : Plane s} {run : SadFn s},
    kernels.admitSad depth block source reference = .ok run →
      ∃ answer, kernels.sad depth block source reference = .ok answer ∧
        kernels.sad depth block (source.bottomUp block) (reference.bottomUp block) = .ok answer
  sadX4 : ∀ {source : Plane s} {references : Vector (Plane s) 4} {run : SadX4Fn s},
    kernels.admitSadX4 depth block source references = .ok run →
    (∀ p ∈ references, ∀ q ∈ references, p.stride = q.stride) →
      ∃ costs, kernels.sadX4 depth block source references = .ok costs ∧
        kernels.sadX4 depth block (source.bottomUp block) (references.map (Plane.bottomUp block))
          = .ok costs
  sadAvg : ∀ {source reference : Plane s} {second : Array (Sample s)} {run : SadAvgFn s},
    kernels.admitSadAvg depth block source reference second = .ok run →
      ∃ answer, kernels.sadAvg depth block source reference second = .ok answer ∧
        kernels.sadAvg depth block (source.bottomUp block) (reference.bottomUp block)
          (Sad.bottomUp block second) = .ok answer

section Levels

variable {kernels : Kernels} {processor : Processor} (h : kernels.Selects processor)
include h

theorem seesBlocksOnly (s : Storage) (depth : Depth) (block : BlockSize) :
    kernels.SeesBlocksOnly s depth block where
  sad := by
    intro source source' reference reference' run run' hrun hrun' hsource hreference
    obtain ⟨hdepth, hs, hr⟩ := admits_of_admitSad h hrun
    obtain ⟨_, hs', hr'⟩ := admits_of_admitSad h hrun'
    exact sad_alike h hdepth hdepth ⟨hs, hs', hsource⟩ ⟨hr, hr', hreference⟩
  sadBounded := by
    intro source source' reference reference' run run' hrun hrun' hsource hreference bound
    obtain ⟨hdepth, hblock, hs, hr⟩ := admits_of_admitSadBounded h hrun
    obtain ⟨_, _, hs', hr'⟩ := admits_of_admitSadBounded h hrun'
    exact sadBounded_alike h hdepth hdepth ⟨hs, hs', hsource⟩ hblock ⟨hr, hr', hreference⟩ bound
  sadX4 := by
    intro source source' references references' run run' hrun hrun' hstride hstride'
      hsource hreferences
    obtain ⟨hdepth, hs, hr⟩ := admits_of_admitSadX4 h hrun
    obtain ⟨_, hs', hr'⟩ := admits_of_admitSadX4 h hrun'
    exact sadX4_alike h hdepth hdepth ⟨hs, hs', hsource⟩ hstride hstride' fun i hi =>
      ⟨hr _ (Vector.getElem_mem hi), hr' _ (Vector.getElem_mem hi), hreferences i hi⟩
  sadAvg := by
    intro source source' reference reference' second second' run run' hrun hrun' hsource
      hreference hsecond
    obtain ⟨hdepth, hblock, hs, hr, hcover, hle⟩ := admits_of_admitSadAvg h hrun
    obtain ⟨_, _, hs', hr', hcover', hle'⟩ := admits_of_admitSadAvg h hrun'
    refine sadAvg_alike h hdepth hdepth ⟨hs, hs', hsource⟩ hblock ⟨hr, hr', hreference⟩
      ⟨hcover, hcover', hle, hle', ?_⟩
    intro x hx y hy
    have hrow : y * block.width + block.width ≤ block.area := Sad.packed_row_le hy
    rw [packed, packed, Array.getD_eq_getD_getElem?, Array.getD_eq_getD_getElem?,
      hsecond (y * block.width + x) (by omega)]

theorem seesNoDirection (s : Storage) (depth : Depth) (block : BlockSize) :
    kernels.SeesNoDirection s depth block where
  sad := by
    intro source reference run hrun
    obtain ⟨hdepth, hs, hr⟩ := admits_of_admitSad h hrun
    exact sad_bottomUp h hdepth hs hr
  sadX4 := by
    intro source references run hrun hstride
    obtain ⟨hdepth, hs, hr⟩ := admits_of_admitSadX4 h hrun
    exact sadX4_bottomUp h hdepth hs hstride hr
  sadAvg := by
    intro source reference second run hrun
    obtain ⟨hdepth, hblock, hs, hr, hcover, hle⟩ := admits_of_admitSadAvg h hrun
    exact sadAvg_bottomUp h hdepth hs hblock hr hcover hle

end Levels

end Kernels

/-- **At every level costs depend on nothing but the blocks that their planes show**, and the plain,
the batched and the averaged cost not even on whether these are read from above or from below. -/
theorem costs_depend_on_shown_blocks (processor : Processor) (level : CpuLevel) :
    ∃ kernels, Kernels.atLevel processor level = .ok kernels ∧
      ∀ (s : Storage) (depth : Depth) (block : BlockSize),
        kernels.SeesBlocksOnly s depth block ∧ kernels.SeesNoDirection s depth block := by
  obtain ⟨kernels, hkernels, hselects⟩ := Kernels.atLevel_selects processor level
  exact ⟨kernels, hkernels, fun s depth block =>
    ⟨Kernels.seesBlocksOnly hselects s depth block, Kernels.seesNoDirection hselects s depth block⟩⟩

/-- Sixteen rows of sixteen samples, each a sample before the one above it. -/
def slidingRows : Plane .byte := ⟨Array.ofFn fun i : Fin 31 => BitVec.ofNat 8 (8 * i), 15, -1⟩

/-- The same rows, packed. -/
def packedRows : Plane .byte := Plane.contiguous (slidingRows.pack .b16x16) 16

/-- One dark row, read over and over. -/
def darkRows : Plane .byte := ⟨Array.replicate 16 0, 0, 0⟩

theorem slidingRows_admitted : Kernels.Admits .eight .b16x16 slidingRows :=
  ⟨rfl, Kernels.inRange_eight _⟩

theorem packedRows_alike : slidingRows.Alike .b16x16 packedRows :=
  Kernels.alike_contiguous_pack slidingRows_admitted

/-- Overlapping rows with a negative stride cost what the same rows cost when they are packed, also
where the sum is cut short, and what they cost from below. -/
theorem cost_of_slidingRows_packed :
    slidingRows.Alike .b16x16 packedRows ∧
    ∃ kernels, Kernels.atLevel .full .scalar = .ok kernels ∧
      (∃ run run', kernels.admitSadBounded .eight .b16x16 slidingRows darkRows = .ok run ∧
        kernels.admitSadBounded .eight .b16x16 packedRows darkRows = .ok run' ∧
        ∃ answer, kernels.sadBounded .eight .b16x16 slidingRows darkRows 5000 = .ok answer ∧
          kernels.sadBounded .eight .b16x16 packedRows darkRows 5000 = .ok answer) ∧
      ∃ run, kernels.admitSad .eight .b16x16 slidingRows darkRows = .ok run ∧
        ∃ answer, kernels.sad .eight .b16x16 slidingRows darkRows = .ok answer ∧
          kernels.sad .eight .b16x16 (slidingRows.bottomUp .b16x16) (darkRows.bottomUp .b16x16)
            = .ok answer := by
  obtain ⟨kernels, hkernels, hsees⟩ := costs_depend_on_shown_blocks .full .scalar
  obtain ⟨hblocks, hdirection⟩ := hsees .byte .eight .b16x16
  have hselects : kernels.Selects _ := Kernels.selects_of_atLevel hkernels
  have hsliding := slidingRows_admitted
  have hpacked : Kernels.Admits .eight .b16x16 packedRows :=
    Kernels.admits_contiguous_pack hsliding.inRange
  have hdark : Kernels.Admits .eight .b16x16 darkRows := ⟨rfl, Kernels.inRange_eight _⟩
  have hrun := (Kernels.admitSadBounded_iff hselects).mpr
    ⟨rfl, Kernels.checkSadBounded_eq_ok_iff.mpr ⟨by decide, hsliding, hdark⟩, rfl⟩
  have hrun' := (Kernels.admitSadBounded_iff hselects).mpr
    ⟨rfl, Kernels.checkSadBounded_eq_ok_iff.mpr ⟨by decide, hpacked, hdark⟩, rfl⟩
  have hplain := (Kernels.admitSad_iff hselects).mpr
    ⟨rfl, Kernels.requirePair_eq_ok_iff.mpr ⟨hsliding, hdark⟩, rfl⟩
  exact ⟨packedRows_alike, kernels, hkernels,
    ⟨_, _, hrun, hrun', hblocks.sadBounded hrun hrun' packedRows_alike (fun _ _ _ _ => rfl) 5000⟩,
    _, hplain, hdirection.sad hplain⟩

end PixelKernels
