/-
  PixelKernels.Proofs.WideTerms
  ─────────────────────────────
  **A WIDE KERNEL IS ONE LONG ADDITION OF REGISTERS.**

  Whatever the cell, the width and the chunks of a row, a wide kernel adds
  registers to its accumulator one after another.  `rowTerms` lists what a row
  adds and `blockTerms` what a block adds, as functions of the samples; the
  kernels' loops are folds over these lists (`addRow_eq_foldl`,
  `addRowAverage_eq_foldl`).

  The lanes of all terms of a row add up to its distances, so below 2 ^ 32 the
  fold is exact, and the strict fold, which faults where a lane wraps, is the
  same fold (`foldl_exact`).
-/
import PixelKernels.Proofs.BlockCost
import PixelKernels.Proofs.LaneSums

namespace PixelKernels.Sad.Wide

open Portable (distance)

variable {s : Storage}

/-! ## §1. Accumulators of either cell. -/

namespace Accumulator

/-- The wrapping sum of two accumulators. -/
def add : {s : Storage} → Accumulator s → Accumulator s → Accumulator s
  | .byte, a, b => Register.add a b
  | .word, a, b => Register.add a b

/-- The sum of two accumulators, or a fault where a lane wraps. -/
def addStrict : {s : Storage} → Accumulator s → Accumulator s → Outcome (Accumulator s)
  | .byte, a, b => Register.addStrict a b
  | .word, a, b => Register.addStrict a b

/-- The cost added up so far, or a fault where the horizontal sum loses something. -/
def totalStrict : {s : Storage} → Accumulator s → Outcome Nat
  | .byte, a => Register.sum64Strict a
  | .word, a => Register.sum32Strict a

/-- The lanes of an accumulator, added up as numbers. -/
def laneSum : {s : Storage} → Accumulator s → Nat
  | .byte, a => Register.laneSum a
  | .word, a => Register.laneSum a

@[simp] theorem laneSum_empty (s : Storage) : laneSum (empty s) = 0 := by
  cases s <;> exact Register.laneSum_zero

theorem laneSum_add {a b : Accumulator s} (h : laneSum a + laneSum b < 2 ^ 32) :
    laneSum (add a b) = laneSum a + laneSum b := by
  cases s with
  | byte => exact Register.laneSum_add (Nat.lt_trans h (by decide))
  | word => exact Register.laneSum_add h

theorem addStrict_of_laneSum_lt {a b : Accumulator s} (h : laneSum a + laneSum b < 2 ^ 32) :
    addStrict a b = .ok (add a b) := by
  cases s with
  | byte => exact Register.addStrict_of_laneSum_lt (Nat.lt_trans h (by decide))
  | word => exact Register.addStrict_of_laneSum_lt h

theorem total_of_laneSum_lt {a : Accumulator s} (h : laneSum a < 2 ^ 32) : total a = laneSum a := by
  cases s with
  | byte => exact Register.toNat_sum64 h
  | word => exact Register.toNat_sum32 h

theorem totalStrict_of_laneSum_lt {a : Accumulator s} (h : laneSum a < 2 ^ 32) :
    totalStrict a = .ok (laneSum a) := by
  cases s with
  | byte => exact Register.sum64Strict_of_laneSum_lt h
  | word => exact Register.sum32Strict_of_laneSum_lt h

/-- **A fold of additions is exact below 2 ^ 32, and none of them wraps.** -/
theorem foldl_exact (terms : List (Accumulator s)) :
    ∀ acc : Accumulator s, laneSum acc + (terms.map laneSum).sum < 2 ^ 32 →
      laneSum (terms.foldl add acc) = laneSum acc + (terms.map laneSum).sum
        ∧ terms.foldlM addStrict acc = .ok (terms.foldl add acc) := by
  induction terms with
  | nil => intro acc _; exact ⟨rfl, rfl⟩
  | cons t rest ih =>
    intro acc h
    rw [List.map_cons, List.sum_cons] at h ⊢
    -- the bound on the whole is a bound on the first addition and on the rest
    have hhead := laneSum_add (a := acc) (b := t) (by omega)
    obtain ⟨hsum, hstrict⟩ := ih (add acc t) (by omega)
    rw [List.foldl_cons, List.foldlM_cons, addStrict_of_laneSum_lt (by omega), Outcome.ok_bind]
    exact ⟨by omega, hstrict⟩

end Accumulator

/-! ## §2. What a row adds. -/

/-- The registers that one row against another adds to the accumulator, in order. -/
def rowTerms (width : Nat) : {s : Storage} → (f g : Nat → Sample s) → List (Accumulator s)
  | .byte, f, g =>
      if width = 16 then
        [Register.zeroExtend
          (Register.sumDistances (n := 2) (Register.window 16 f 0) (Register.window 16 g 0))]
      else
        (starts width 32).map fun x =>
          Register.sumDistances (n := 4) (Register.window 32 f x) (Register.window 32 g x)
  | .word, f, g =>
      (starts width 16).map fun x =>
        Register.addPairs (n := 8)
          (wordDistances (Register.window 16 f x) (Register.window 16 g x)) (Register.splat 16 1)

/-- Chunks that start where the kernels start them end inside the row. -/
theorem add_le_of_mem_starts {width step x : Nat} (hx : x ∈ starts width step) :
    x + step ≤ width := by
  obtain ⟨i, hi, rfl⟩ := List.mem_map.mp hx
  have hi := List.mem_range.mp hi
  calc step * i + step = step * (i + 1) := (Nat.mul_succ step i).symm
    _ ≤ step * (width / step) := Nat.mul_le_mul_left step hi
    _ ≤ width := Nat.mul_div_le width step

/-- `addRow` with the addition of accumulators left open. -/
def addRowWith (width : Nat) : {s : Storage} →
    (add : Accumulator s → Accumulator s → Outcome (Accumulator s)) → Accumulator s →
    (source reference : List (Sample s)) → Outcome (Accumulator s)
  | .byte, add, acc, source, reference =>
      if width = 16 then do
        add acc (Register.zeroExtend (Register.sumDistances (n := 2)
          (← Register.load 16 source 0) (← Register.load 16 reference 0)))
      else
        (starts width 32).foldlM (fun acc x => do
          add acc (Register.sumDistances (n := 4)
            (← Register.load 32 source x) (← Register.load 32 reference x))) acc
  | .word, add, acc, source, reference =>
      (starts width 16).foldlM (fun acc x => do
        add acc (Register.addPairs (n := 8)
          (wordDistances (← Register.load 16 source x) (← Register.load 16 reference x))
          (Register.splat 16 1))) acc

/-- The wrapping addition, which never faults. -/
def wrapping (a b : Accumulator s) : Outcome (Accumulator s) := pure (a.add b)

/-- With the wrapping addition this is what the kernel runs. -/
theorem addRowWith_wrapping (width : Nat) (acc : Accumulator s) (source reference : List (Sample s)) :
    addRowWith width wrapping acc source reference = addRow width acc source reference := by
  cases s <;> rfl

/-- **A row adds its terms, in whatever way they are added.** -/
theorem addRowWith_eq_foldlM (width : Nat) (add : Accumulator s → Accumulator s → Outcome (Accumulator s))
    (acc : Accumulator s) (f g : Nat → Sample s) :
    addRowWith width add acc ((List.range width).map f) ((List.range width).map g)
      = (rowTerms width f g).foldlM add acc := by
  cases s with
  | byte =>
    simp only [addRowWith, rowTerms]
    by_cases hw : width = 16
    · rw [if_pos hw, if_pos hw, Register.load_map_range (by omega), Register.load_map_range (by omega),
        List.foldlM_cons]
      exact (bind_pure _).symm
    · rw [if_neg hw, if_neg hw, List.foldlM_map]
      apply Outcome.foldlM_congr
      intro x hx acc
      have hin := add_le_of_mem_starts hx
      rw [Register.load_map_range hin, Register.load_map_range hin]
      rfl
  | word =>
    simp only [addRowWith, rowTerms]
    rw [List.foldlM_map]
    apply Outcome.foldlM_congr
    intro x hx acc
    have hin := add_le_of_mem_starts hx
    rw [Register.load_map_range hin, Register.load_map_range hin]
    rfl

theorem foldlM_wrapping (terms : List (Accumulator s)) (acc : Accumulator s) :
    terms.foldlM wrapping acc = .ok (terms.foldl Accumulator.add acc) :=
  Outcome.foldlM_of_forall_ok (fun _ _ _ => rfl) acc

theorem addRow_eq_foldl (width : Nat) (acc : Accumulator s) (f g : Nat → Sample s) :
    addRow width acc ((List.range width).map f) ((List.range width).map g)
      = .ok ((rowTerms width f g).foldl Accumulator.add acc) := by
  rw [← addRowWith_wrapping, addRowWith_eq_foldlM, foldlM_wrapping]

theorem average_window {n start : Nat} (f g : Nat → Sample s) :
    Register.average (Register.window n f start) (Register.window n g start)
      = Register.window n (fun x => mean (f x) (g x)) start := by
  apply Vector.ext
  intro i hi
  simp [Register.average, Register.window, mean]

/-- **Against an average, a row adds its terms against the averaged row.** -/
theorem addRowAverage_eq_foldl (width : Nat) (acc : Accumulator s) (f g h : Nat → Sample s) :
    addRowAverage width acc ((List.range width).map f) ((List.range width).map g)
        ((List.range width).map h)
      = .ok ((rowTerms width f fun x => mean (g x) (h x)).foldl Accumulator.add acc) := by
  cases s with
  | byte =>
    simp only [addRowAverage, rowTerms]
    by_cases hw : width = 16
    · rw [if_pos hw, if_pos hw, Register.load_map_range (by omega), Register.load_map_range (by omega),
        Register.load_map_range (by omega), ← average_window]
      rfl
    · rw [if_neg hw, if_neg hw, List.foldl_map]
      apply Outcome.foldlM_of_forall_ok
      intro x hx acc
      have hin := add_le_of_mem_starts hx
      rw [Register.load_map_range hin, Register.load_map_range hin, Register.load_map_range hin,
        ← average_window]
      rfl
  | word =>
    simp only [addRowAverage, rowTerms]
    rw [List.foldl_map]
    apply Outcome.foldlM_of_forall_ok
    intro x hx acc
    have hin := add_le_of_mem_starts hx
    rw [Register.load_map_range hin, Register.load_map_range hin, Register.load_map_range hin,
      ← average_window]
    rfl

/-! ## §3. What a row's terms add up to. -/

/-- Runs of `step` from each start cover a row whose width `step` divides. -/
theorem sum_starts {M : Type} [AddCommMonoid M] {width step : Nat} (hstep : step ∣ width)
    (d : Nat → M) :
    ((starts width step).map fun x => ∑ j ∈ Finset.range step, d (x + j)).sum
      = ∑ x ∈ Finset.range width, d x := by
  obtain ⟨count, rfl⟩ := hstep
  rcases Nat.eq_zero_or_pos step with rfl | hpos
  · simp [starts]
  · rw [starts, Nat.mul_div_cancel_left count hpos, List.map_map, sum_range_mul]
    exact sum_map_range count _

/-- **The terms of a row add up to its distances**, which for words must stay below 2 ^ 15. -/
theorem sum_rowTerms {width : Nat} {f g : Nat → Sample s} (hw : width = 16 ∨ 32 ∣ width)
    (h : ∀ x < width, distance (f x).toNat (g x).toNat < 2 ^ 15) :
    ((rowTerms width f g).map Accumulator.laneSum).sum
      = ∑ x ∈ Finset.range width, distance (f x).toNat (g x).toNat := by
  cases s with
  | byte =>
    simp only [rowTerms]
    by_cases h16 : width = 16
    · -- half a register holds the row, and its upper half adds nothing
      rw [if_pos h16, h16, List.map_singleton, List.sum_singleton]
      have hhalf := Register.laneSum_sumDistances (n := 2) f g 0
      simp only [Nat.zero_add] at hhalf
      exact (Register.laneSum_zeroExtend (n := 2)
        (Register.sumDistances (Register.window 16 f 0) (Register.window 16 g 0))).trans hhalf
    · rw [if_neg h16, List.map_map, ← sum_starts (hw.resolve_left h16)]
      apply congrArg List.sum
      apply List.map_congr_left
      intro x _
      exact Register.laneSum_sumDistances (n := 4) f g x
  | word =>
    have hdvd : 16 ∣ width := by omega
    simp only [rowTerms]
    rw [List.map_map, ← sum_starts hdvd]
    apply congrArg List.sum
    apply List.map_congr_left
    intro x hx
    have hin := add_le_of_mem_starts hx
    exact Register.laneSum_addPairs_wordDistances fun j hj => h (x + j) (by omega)

/-! ## §4. Blocks. -/

/-- The registers that a block against another adds to the accumulator, row by row. -/
def blockTerms (width height : Nat) (f g : Nat → Nat → Sample s) : List (Accumulator s) :=
  (List.range height).flatMap fun y => rowTerms width (f · y) (g · y)

/-- The terms of a block add up to its cost. -/
theorem sum_blockTerms {width height : Nat} {f g : Nat → Nat → Sample s}
    (hw : width = 16 ∨ 32 ∣ width)
    (h : ∀ x < width, ∀ y < height, distance (f x y).toNat (g x y).toNat < 2 ^ 15) :
    ((blockTerms width height f g).map Accumulator.laneSum).sum = cost width height f g := by
  rw [blockTerms, sum_map_flatMap, cost, ← sum_map_range]
  apply congrArg List.sum
  apply List.map_congr_left
  intro y hy
  exact sum_rowTerms hw fun x hx => h x hx y (List.mem_range.mp hy)

/-- The accumulator of a kernel after a block. -/
def blockAccumulator (width height : Nat) (f g : Nat → Nat → Sample s) : Accumulator s :=
  (blockTerms width height f g).foldl Accumulator.add (Accumulator.empty s)

/-- **A block's accumulator holds its cost exactly, and no addition on the way wraps.** -/
theorem blockAccumulator_exact {width height : Nat} {f g : Nat → Nat → Sample s}
    (hw : width = 16 ∨ 32 ∣ width) (hw64 : width ≤ 64) (hh : height ≤ 64)
    (h : ∀ x < width, ∀ y < height, distance (f x y).toNat (g x y).toNat < 2 ^ 15) :
    (blockAccumulator width height f g).laneSum = cost width height f g ∧
      (blockTerms width height f g).foldlM Accumulator.addStrict (Accumulator.empty s)
        = .ok (blockAccumulator width height f g) := by
  have hsum := sum_blockTerms hw h
  have hlt := cost_lt hw64 hh f g
  obtain ⟨hexact, hstrict⟩ := Accumulator.foldl_exact (blockTerms width height f g)
    (Accumulator.empty s) (by rw [Accumulator.laneSum_empty]; omega)
  rw [Accumulator.laneSum_empty, hsum, Nat.zero_add] at hexact
  exact ⟨hexact, hstrict⟩

/-- What is in the accumulator reads back as the cost. -/
theorem total_blockAccumulator {width height : Nat} {f g : Nat → Nat → Sample s}
    (hw : width = 16 ∨ 32 ∣ width) (hw64 : width ≤ 64) (hh : height ≤ 64)
    (h : ∀ x < width, ∀ y < height, distance (f x y).toNat (g x y).toNat < 2 ^ 15) :
    (blockAccumulator width height f g).total = cost width height f g := by
  have hexact := (blockAccumulator_exact hw hw64 hh h).1
  have hlt := cost_lt hw64 hh f g
  rw [Accumulator.total_of_laneSum_lt (by rw [hexact]; exact hlt), hexact]

section Planes

variable {width height : Nat} {source reference : Plane s}

/-- The rows of a block, added in a way that is left open. -/
def accumulateWith (add : Accumulator s → Accumulator s → Outcome (Accumulator s))
    (width height : Nat) (source reference : Plane s) : Outcome (Accumulator s) :=
  (List.range height).foldlM (fun acc y => do
    addRowWith width add acc (← source.row y width) (← reference.row y width)) (Accumulator.empty s)

theorem accumulateWith_wrapping (width height : Nat) (source reference : Plane s) :
    accumulateWith wrapping width height source reference
      = accumulate width height source reference := by
  unfold accumulateWith accumulate
  simp only [addRowWith_wrapping]

/-- **Over planes that hold the block, the kernel's loop goes over the block's terms.** -/
theorem accumulateWith_of_holds (add : Accumulator s → Accumulator s → Outcome (Accumulator s))
    (hs : source.Holds width height) (hr : reference.Holds width height) :
    accumulateWith add width height source reference
      = (blockTerms width height source.pixel reference.pixel).foldlM add (Accumulator.empty s) := by
  rw [accumulateWith, blockTerms, Outcome.foldlM_flatMap]
  apply Outcome.foldlM_congr
  intro y hy acc
  have hy := List.mem_range.mp hy
  rw [Plane.row_of_holds hs hy, Outcome.ok_bind, Plane.row_of_holds hr hy, Outcome.ok_bind]
  exact addRowWith_eq_foldlM width add acc (source.pixel · y) (reference.pixel · y)

theorem accumulate_of_holds (hs : source.Holds width height) (hr : reference.Holds width height) :
    accumulate width height source reference
      = .ok (blockAccumulator width height source.pixel reference.pixel) := by
  rw [← accumulateWith_wrapping, accumulateWith_of_holds wrapping hs hr, foldlM_wrapping]
  rfl

/-- The wide cost of a block is what its accumulator reads back. -/
theorem sad_of_fits_eq_total (hw : width ≤ 64) (hh : height ≤ 64)
    (hs : source.fits width height = .ok true) (hr : reference.fits width height = .ok true) :
    sad width height source reference
      = .ok (blockAccumulator width height source.pixel reference.pixel).total := by
  have hsource := Plane.holds_of_fits (by omega) (by omega) hs
  have hreference := Plane.holds_of_fits (by omega) (by omega) hr
  rw [sad, Plane.assertFits_of_fits hs, Outcome.ok_bind,
    Plane.assertFits_of_fits hr, Outcome.ok_bind,
    accumulate_of_holds hsource hreference]
  rfl

/-- The wide cost against an average is what the accumulator against the averaged matrix reads
back. -/
theorem sadAvg_of_fits_eq_total {second : Array (Sample s)} (hw : width ≤ 64) (hh : height ≤ 64)
    (hs : source.fits width height = .ok true) (hr : reference.fits width height = .ok true)
    (hcover : width * height ≤ second.size) :
    sadAvg width height source reference second
      = .ok (blockAccumulator width height source.pixel
          fun x y => mean (reference.pixel x y) (packed width second x y)).total := by
  have hsource := Plane.holds_of_fits (by omega) (by omega) hs
  have hreference := Plane.holds_of_fits (by omega) (by omega) hr
  rw [sadAvg, Plane.assertFits_of_fits hs, Outcome.ok_bind,
    Plane.assertFits_of_fits hr, Outcome.ok_bind,
    decide_eq_true hcover, Outcome.require_true, Outcome.ok_bind, blockAccumulator, blockTerms,
    List.foldl_flatMap]
  -- each row goes into the accumulator against its averaged row
  rw [Outcome.foldlM_of_forall_ok fun y hy acc => ?_]
  · rfl
  · have hy := List.mem_range.mp hy
    rw [Plane.row_of_holds hsource hy, Outcome.ok_bind, Plane.row_of_holds hreference hy,
      Outcome.ok_bind, slice_packed hcover hy, Outcome.ok_bind]
    exact addRowAverage_eq_foldl width acc (source.pixel · y) (reference.pixel · y)
      (packed width second · y)

/-- The wide costs against four references are what their four accumulators read back; the
references need not share a stride. -/
theorem sadX4_of_fits_eq_total {references : Vector (Plane s) 4} (hw : width ≤ 64)
    (hh : height ≤ 64) (hs : source.fits width height = .ok true)
    (hr : ∀ reference ∈ references, reference.fits width height = .ok true) :
    sadX4 width height source references
      = .ok (references.map fun reference =>
          (blockAccumulator width height source.pixel reference.pixel).total) := by
  have hsource := Plane.holds_of_fits (by omega) (by omega) hs
  have hfits : (references.forM fun reference => reference.assertFits width height) = .ok () := by
    apply Outcome.forM_vector_eq_ok_iff.mpr
    intro reference hin
    exact Plane.assertFits_of_fits (hr reference hin)
  -- one row goes through the four accumulators side by side
  have hrow : ∀ y ∈ List.range height, ∀ accs : Vector (Accumulator s) 4,
      (source.row y width >>= fun row => (accs.zip references).mapM fun p => do
          addRow width p.1 row (← p.2.row y width))
        = .ok ((accs.zip references).map fun p =>
            (rowTerms width (source.pixel · y) (p.2.pixel · y)).foldl Accumulator.add p.1) := by
    intro y hy accs
    have hy := List.mem_range.mp hy
    rw [Plane.row_of_holds hsource hy, Outcome.ok_bind]
    apply Outcome.mapM_vector_of_forall_ok
    intro p hp
    have hin := hr p.2 (Vector.of_mem_zip hp).2
    have hreference := Plane.holds_of_fits (by omega) (by omega) hin
    show (p.2.row y width >>= fun row => addRow width p.1 _ row) = _
    rw [Plane.row_of_holds hreference hy, Outcome.ok_bind]
    exact addRow_eq_foldl width p.1 (source.pixel · y) (p.2.pixel · y)
  have hstart : Vector.replicate 4 (Accumulator.empty s)
      = references.map fun _ => Accumulator.empty s := by
    apply Vector.ext
    intro i hi
    simp
  rw [sadX4, Plane.assertFits_of_fits hs, Outcome.ok_bind, hfits,
    Outcome.ok_bind, Outcome.foldlM_of_forall_ok hrow, Outcome.ok_bind, hstart,
    foldl_zip_map references (fun acc reference y =>
      (rowTerms width (source.pixel · y) (reference.pixel · y)).foldl Accumulator.add acc)]
  show Except.ok _ = _
  rw [Vector.map_map]
  simp only [blockAccumulator, blockTerms, List.foldl_flatMap]
  rfl

end Planes

end PixelKernels.Sad.Wide
