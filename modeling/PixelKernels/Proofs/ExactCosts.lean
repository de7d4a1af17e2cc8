/-
  PixelKernels.Proofs.ExactCosts
  ──────────────────────────────
  **A COST IS THE SUM OF THE DISTANCES, AND NOTHING WRAPS ON THE WAY.**

  `Sad.exact` is the cost as one would write it down: the sum over all rows
  and columns of the absolute difference of two samples, each read from its
  buffer at `base + y * stride + x`, over the integers.

    • A call that is let through reads inside its buffers, and there the
      64-bit positions are these (`Plane.position_eq_index`).
    • So the cost of the block is the exact one (`cost_eq_exact`).
    • `Sad.Wide.sadStrict` is the wide kernel with every addition of lanes
      and every step of the horizontal sum made to fault where it wraps.  It
      answers like the kernel (`sadStrict_of_admits`), so none does.  The
      portable kernel is checked as it is.
-/
import PixelKernels.Proofs.EntryPoints

namespace PixelKernels

open Finset

variable {s : Storage} {depth : Depth} {block : BlockSize}

/-! ## §1. Positions as they are written down. -/

/-- A 64-bit size that is not negative as a position is read as it is. -/
theorem signed_of_nonneg {n : Nat} (hn : n < 1 <<< 64) (h : 0 ≤ signed n) : signed n = n := by
  unfold signed at h ⊢
  simp only [Nat.reduceShiftLeft] at hn h ⊢
  split at h
  · rw [if_pos ‹_›, Nat.mod_eq_of_lt hn]
  · omega

namespace Plane

variable {p : Plane s} {width height x y : Nat}

/-- Position of a sample in the buffer, over the integers. -/
def index (p : Plane s) (x y : Nat) : Int := p.base + y * p.stride + x

/-- The sample at that position, as a number. -/
def entry (p : Plane s) (x y : Nat) : Int := (p.data.getD (p.index x y).toNat 0).toNat

/-- **Where a rectangle fits, the 64-bit positions are the integer ones.** -/
theorem position_eq_index (h : p.Holds width height) (hbase : p.base < 1 <<< 64) (hy : y < height) :
    p.position x y = p.index x y := by
  have hfirst := h.start 0 (by omega)
  have hsigned : signed p.base = p.base := by
    refine signed_of_nonneg hbase ?_
    simpa [position] using hfirst
  rw [position, index, hsigned]

/-- Every sample of a rectangle that fits is in the buffer. -/
theorem index_inside (h : p.Holds width height) (hbase : p.base < 1 <<< 64) (hx : x < width)
    (hy : y < height) : 0 ≤ p.index x y ∧ p.index x y < p.data.size := by
  have hstart := h.start y hy
  have hroom := h.room y hy
  have hat := position_add p x y
  rw [← position_eq_index h hbase hy]
  omega

theorem toNat_pixel (h : p.Holds width height) (hbase : p.base < 1 <<< 64) (hy : y < height) :
    ((p.pixel x y).toNat : Int) = p.entry x y := by
  rw [pixel, entry, position_eq_index h hbase hy]

end Plane

/-! ## §2. The exact cost. -/

/-- Sum of the absolute differences of two planes over a block. -/
def Sad.exact (block : BlockSize) (source reference : Plane s) : Nat :=
  ∑ y ∈ range block.height, ∑ x ∈ range block.width,
    (source.entry x y - reference.entry x y).natAbs

/-- Sum of the absolute differences of two planes over their first rows. -/
def Sad.exactRows (width rows : Nat) (source reference : Plane s) : Nat :=
  ∑ y ∈ range rows, ∑ x ∈ range width, (source.entry x y - reference.entry x y).natAbs

theorem distance_eq_natAbs (a b : Nat) : Sad.Portable.distance a b = (a - b : Int).natAbs := by
  unfold Sad.Portable.distance
  omega

section Planes

variable {source reference : Plane s}

/-- The cost of the first rows of a rectangle that fits is the exact one. -/
theorem cost_eq_exactRows {width height rows : Nat} (hs : source.Holds width height)
    (hr : reference.Holds width height) (hsource : source.base < 1 <<< 64)
    (hreference : reference.base < 1 <<< 64) (hrows : rows ≤ height) :
    Sad.cost width rows source.pixel reference.pixel = Sad.exactRows width rows source reference := by
  unfold Sad.cost Sad.exactRows
  apply sum_congr rfl
  intro y hy
  apply sum_congr rfl
  intro x _
  have hy : y < height := Nat.lt_of_lt_of_le (mem_range.mp hy) hrows
  rw [distance_eq_natAbs, Plane.toNat_pixel hs hsource hy, Plane.toNat_pixel hr hreference hy]

/-- **The cost of a block that is let through is the exact one.** -/
theorem cost_eq_exact (hs : Kernels.Admits depth block source)
    (hr : Kernels.Admits depth block reference) (hsource : source.base < 1 <<< 64)
    (hreference : reference.base < 1 <<< 64) :
    Sad.cost block.width block.height source.pixel reference.pixel
      = Sad.exact block source reference :=
  cost_eq_exactRows hs.holds hr.holds hsource hreference (Nat.le_refl block.height)

end Planes

/-! ## §3. No lane wraps. -/

namespace Sad.Wide

/-- The wide kernel, with its additions and its horizontal sum left open. -/
def sadWith (add : Accumulator s → Accumulator s → Outcome (Accumulator s))
    (total : Accumulator s → Outcome Nat) (width height : Nat) (source reference : Plane s) :
    Outcome Nat := do
  source.assertFits width height
  reference.assertFits width height
  total (← accumulateWith add width height source reference)

/-- With the wrapping operations this is the wide kernel. -/
theorem sadWith_wrapping (width height : Nat) (source reference : Plane s) :
    sadWith wrapping (fun acc => pure acc.total) width height source reference
      = sad width height source reference := by
  unfold sadWith sad
  rw [accumulateWith_wrapping]

/-- The wide kernel, with a fault wherever a lane of an accumulator or of the horizontal sum wraps. -/
def sadStrict (width height : Nat) (source reference : Plane s) : Outcome Nat :=
  sadWith Accumulator.addStrict Accumulator.totalStrict width height source reference

/-- **No lane of the wide kernel wraps.** -/
theorem sadStrict_of_admits {source reference : Plane s} (hs : Kernels.Admits depth block source)
    (hr : Kernels.Admits depth block reference) (hw : block.width = 16 ∨ 32 ∣ block.width) :
    sadStrict block.width block.height source reference
      = .ok (cost block.width block.height source.pixel reference.pixel) := by
  have hdistance : ∀ x < block.width, ∀ y < block.height,
      Portable.distance (source.pixel x y).toNat (reference.pixel x y).toNat < 2 ^ 15 :=
    fun x hx y hy => Kernels.distance_lt_of_le (hs.inRange x hx y hy) (hr.inRange x hx y hy)
  obtain ⟨hexact, hstrict⟩ :=
    blockAccumulator_exact hw block.width_le block.height_le hdistance
  have hlt := cost_lt block.width_le block.height_le source.pixel reference.pixel
  rw [sadStrict, sadWith, Plane.assertFits_of_fits hs.fits, Outcome.ok_bind,
    Plane.assertFits_of_fits hr.fits, Outcome.ok_bind, accumulateWith_of_holds _ hs.holds hr.holds,
    hstrict, Outcome.ok_bind, Accumulator.totalStrict_of_laneSum_lt (by rw [hexact]; exact hlt), hexact]

end Sad.Wide

/-! ## §4. Any level. -/

/-- What an entry point answers to a call that it lets through: the exact cost, which is the reference
cost, fits in 32 bits and is read inside both buffers; and the kernel that answers is the portable one,
whose sums are checked, or the wide one, which is then its strict form. -/
structure Sad.AnswersExactly (kernels : Kernels) (run : SadFn s) (depth : Depth) (block : BlockSize)
    (source reference : Plane s) : Prop where
  exact : kernels.sad depth block source reference = .ok (Sad.exact block source reference)
  conforms : Reference.sad block source reference = .ok (Sad.exact block source reference)
  fits : Sad.exact block source reference < 1 <<< 32
  inside : ∀ x < block.width, ∀ y < block.height,
    (0 ≤ source.index x y ∧ source.index x y < source.data.size) ∧
      0 ≤ reference.index x y ∧ reference.index x y < reference.data.size
  unwrapped : run = Sad.Portable.sad block.width block.height ∨
    run = Sad.Wide.sad block.width block.height ∧
      Sad.Wide.sadStrict block.width block.height source reference = run source reference

/-- **At every level a cost that is let through is exact, and no sum on the way wraps.** -/
theorem costs_are_exact (processor : Processor) (level : CpuLevel) (depth : Depth) (block : BlockSize)
    (source reference : Plane depth.storage) (hsource : source.base < 1 <<< 64)
    (hreference : reference.base < 1 <<< 64) :
    ∃ kernels, Kernels.atLevel processor level = .ok kernels ∧
      ∀ run, kernels.admitSad depth block source reference = .ok run →
        Sad.AnswersExactly kernels run depth block source reference := by
  obtain ⟨kernels, hkernels, hselects⟩ := Kernels.atLevel_selects processor level
  refine ⟨kernels, hkernels, ?_⟩
  intro run hrun
  rw [Kernels.admitSad_eq hselects rfl, Outcome.check_bind_eq_ok_iff] at hrun
  obtain ⟨hchecks, hrun⟩ := hrun
  obtain ⟨hs, hr⟩ := Kernels.requirePair_eq_ok_iff.mp hchecks
  have hexact := cost_eq_exact hs hr hsource hreference
  have hlt := Sad.cost_lt block.width_le block.height_le source.pixel reference.pixel
  refine ⟨?_, ?_, ?_, ?_, ?_⟩
  · rw [Kernels.sad_eq hselects rfl, hchecks, Outcome.ok_bind, hexact]
    rfl
  · rw [Sad.reference_sad_of_fits hs.fits hr.fits, hexact]
  · rw [← hexact]
    exact hlt
  · intro x hx y hy
    exact ⟨Plane.index_inside hs.holds hsource hx hy, Plane.index_inside hr.holds hreference hx hy⟩
  · -- the level only decides which of the two kernels it is
    by_cases hwide : runsWide (processor.upTo level) block = true
    · rw [if_pos hwide] at hrun
      obtain rfl := Except.ok.inj hrun
      refine .inr ⟨rfl, ?_⟩
      have hanswer := Kernels.run_sad (processor.upTo level) hs hr
      rw [if_pos hwide] at hanswer
      rw [hanswer]
      exact Sad.Wide.sadStrict_of_admits hs hr (Kernels.width_of_runsWide hwide)
    · rw [if_neg hwide] at hrun
      exact .inl (Except.ok.inj hrun).symm

/-- Eight rows of sixteen samples, each one sample before the one above it. -/
def upwardRows : Plane .byte := ⟨Array.replicate 23 10, 7, -1⟩

/-- One row of sixteen samples, read over and over. -/
def oneRow : Plane .byte := ⟨Array.replicate 16 3, 0, 0⟩

/-- A negative stride and a stride of zero, with vector registers. -/
theorem cost_of_upwardRows_is_exact :
    upwardRows.base < 1 <<< 64 ∧ oneRow.base < 1 <<< 64 ∧
    ∃ kernels, Kernels.atLevel .full .v3 = .ok kernels ∧
      ∃ run, kernels.admitSad .eight .b16x8 upwardRows oneRow = .ok run ∧
        Sad.AnswersExactly kernels run .eight .b16x8 upwardRows oneRow := by
  obtain ⟨kernels, hkernels, hexact⟩ :=
    costs_are_exact .full .v3 .eight .b16x8 upwardRows oneRow (by decide) (by decide)
  have hselects : kernels.Selects _ := Kernels.selects_of_atLevel hkernels
  have hs : Kernels.Admits .eight .b16x8 upwardRows :=
    ⟨rfl, fun x _ y _ => Nat.le_of_lt_succ (upwardRows.pixel x y).isLt⟩
  have hr : Kernels.Admits .eight .b16x8 oneRow :=
    ⟨rfl, fun x _ y _ => Nat.le_of_lt_succ (oneRow.pixel x y).isLt⟩
  have hstored : Depth.eight.storage = .byte := rfl
  have hadmit : ∃ run, kernels.admitSad .eight .b16x8 upwardRows oneRow = .ok run := by
    rw [Kernels.admitSad_eq hselects hstored, Kernels.requirePair_eq_ok_iff.mpr ⟨hs, hr⟩]
    exact ⟨_, rfl⟩
  obtain ⟨run, hrun⟩ := hadmit
  exact ⟨by decide, by decide, kernels, hkernels, run, hrun, hexact run hrun⟩

example : Sad.exact .b16x8 upwardRows oneRow = 896 := by decide +kernel

end PixelKernels
