/-
  PixelKernels.Proofs.SignedPairs
  ───────────────────────────────
  **WHAT THE WIDE COSTS OF WORDS LOSE TO A SIGN.**

  The wide kernels for words take distances in unsigned 16-bit lanes and then
  sum them in pairs as signed ones.  A distance of 2 ^ 15 or more is read as
  a negative number, 2 ^ 16 too small.  All that follows is addition in lanes
  of 32 bits, and these are a ring: whatever wraps on the way, the answer is
  the sum of the distances as they were read, wrapped once.

    • `Register.wrappedSum` is the sum of the lanes in that ring.  It is
      additive without a bound (`wrappedSum_add`), and the horizontal sum
      returns it (`sum32_eq_wrappedSum`).
    • A pair sum holds the distances as they are read
      (`wrappedSum_addPairs_wordDistances`), and by the fold over its terms so
      does the accumulator of a block (`wrappedSum_blockAccumulator`).
    • As they are read, the distances of a block add up to its cost less
      2 ^ 16 for every far position (`Sad.sum_readSigned`).

  A block has at most 4096 positions, and it takes 65536 far ones to lose a
  whole 2 ^ 32.  So a wide cost is right exactly if no position is far.
-/
import PixelKernels.Proofs.AveragedCosts

namespace PixelKernels

open Finset
open Sad.Portable (distance)

/-! ## §1. Distances that are read as signed numbers. -/

namespace Sad

variable {s : Storage}

/-- A number of 16 bits, read as a signed one. -/
def readSigned (d : Nat) : Int := if d < 2 ^ 15 then d else d - 2 ^ 16

/-- The positions of a block at which two matrices are 2 ^ 15 or more apart. -/
def farCells (width height : Nat) (f g : Nat → Nat → Sample s) : Finset (Nat × Nat) :=
  {c ∈ range width ×ˢ range height | 2 ^ 15 ≤ distance (f c.1 c.2).toNat (g c.1 c.2).toNat}

variable {width height : Nat} {f g : Nat → Nat → Sample s}

/-- **As they are read, the distances of a block add up to its cost less 2 ^ 16 for every far
position.** -/
theorem sum_readSigned (width height : Nat) (f g : Nat → Nat → Sample s) :
    ∑ y ∈ range height, ∑ x ∈ range width, readSigned (distance (f x y).toNat (g x y).toNat)
      = (cost width height f g : Int) - 2 ^ 16 * (farCells width height f g).card := by
  have hread : ∀ d : Nat, readSigned d = (d : Int) - 2 ^ 16 * if 2 ^ 15 ≤ d then 1 else 0 := by
    intro d
    unfold readSigned
    by_cases hd : d < 2 ^ 15
    · rw [if_pos hd, if_neg (Nat.not_le.mpr hd)]
      simp
    · rw [if_neg hd, if_pos (Nat.not_lt.mp hd)]
      simp
  have hcard : ((farCells width height f g).card : Int)
      = ∑ y ∈ range height, ∑ x ∈ range width,
          if 2 ^ 15 ≤ distance (f x y).toNat (g x y).toNat then (1 : Int) else 0 := by
    rw [farCells, card_filter, sum_product_right]
    push_cast
    rfl
  rw [hcard, cost]
  simp only [Nat.cast_sum, hread, sum_sub_distrib, ← mul_sum]

theorem card_farCells_le (width height : Nat) (f g : Nat → Nat → Sample s) :
    (farCells width height f g).card ≤ width * height := by
  refine (card_filter_le _ _).trans ?_
  rw [card_product, card_range, card_range]

theorem card_farCells_eq_zero_iff : (farCells width height f g).card = 0
    ↔ ∀ x < width, ∀ y < height, distance (f x y).toNat (g x y).toNat ≤ 32767 := by
  rw [card_eq_zero, farCells, filter_eq_empty_iff]
  constructor
  · intro hnear x hx y hy
    have hcell : ¬ 2 ^ 15 ≤ distance (f x y).toNat (g x y).toNat :=
      hnear (mk_mem_product (mem_range.mpr hx) (mem_range.mpr hy))
    omega
  · rintro hnear ⟨x, y⟩ hcell
    obtain ⟨hx, hy⟩ := mem_product.mp hcell
    have hle := hnear x (mem_range.mp hx) y (mem_range.mp hy)
    show ¬ 2 ^ 15 ≤ distance (f x y).toNat (g x y).toNat
    omega

end Sad

/-! ## §2. Sums of lanes that may wrap. -/

namespace Register

variable {k n : Nat}

/-- The lanes of a register, added up in the ring of their width. -/
def wrappedSum (a : Register k n) : BitVec k := ∑ i : Fin n, a.get i

@[simp] theorem wrappedSum_zero : wrappedSum (zero k n) = 0 := by
  simp [wrappedSum, zero]

/-- **Wrapped sums add up, whatever is in the lanes.** -/
theorem wrappedSum_add (a b : Register k n) : wrappedSum (add a b) = wrappedSum a + wrappedSum b := by
  simp only [wrappedSum, Vector.get_eq_getElem, getElem_add, sum_add_distrib]

theorem wrappedSum_foldl (terms : List (Register k n)) (acc : Register k n) :
    wrappedSum (terms.foldl add acc) = wrappedSum acc + (terms.map wrappedSum).sum := by
  induction terms generalizing acc with
  | nil => simp
  | cons t rest ih =>
    show wrappedSum (rest.foldl add (add acc t)) = _
    rw [ih, wrappedSum_add, List.map_cons, List.sum_cons, add_assoc]

/-- **The horizontal sum of 32-bit lanes is their wrapped sum.** -/
theorem sum32_eq_wrappedSum (a : Register 32 8) : sum32 a = wrappedSum a := by
  have hlanes : (laneSum a : BitVec 32) = wrappedSum a := by
    rw [laneSum, wrappedSum, Nat.cast_sum]
    exact sum_congr rfl fun i _ => by simp [Vector.get_eq_getElem]
  rw [← hlanes]
  exact sum32_eq_ofNat a

/-- A lane widened with its sign is the signed number in it. -/
theorem signExtend_eq_readSigned (x : BitVec 16) :
    x.signExtend 32 = ((Sad.readSigned x.toNat : Int) : BitVec 32) := by
  have hsigned : x.toInt = Sad.readSigned x.toNat := by
    rw [BitVec.toInt_eq_toNat_cond, Sad.readSigned]
    split <;> split <;> omega
  rw [← hsigned]
  rfl

/-- **A pair sum holds the distances of two rows of words as they are read, each once.** -/
theorem wrappedSum_addPairs_wordDistances (f g : Nat → BitVec 16) (start : Nat) :
    wrappedSum (addPairs (n := 8) (Sad.Wide.wordDistances (window 16 f start) (window 16 g start))
        (splat 16 1))
      = ∑ j ∈ range 16,
          ((Sad.readSigned (distance (f (start + j)).toNat (g (start + j)).toNat) : Int) : BitVec 32) := by
  have hone : (1 : BitVec 16).signExtend 32 = 1#32 := by decide
  have hlane : ∀ j (hj : j < 16),
      (Sad.Wide.wordDistances (window 16 f start) (window 16 g start))[j].signExtend 32
        = ((Sad.readSigned (distance (f (start + j)).toNat (g (start + j)).toNat) : Int) : BitVec 32) := by
    intro j hj
    rw [signExtend_eq_readSigned, toNat_getElem_wordDistances _ _ hj, getElem_window _ _ hj,
      getElem_window _ _ hj]
  refine Eq.trans ?_ (sum_range_mul 2 8 _).symm
  rw [← Fin.sum_univ_eq_sum_range]
  apply sum_congr rfl
  intro i _
  -- lane `i` holds the distances `2 * i` and `2 * i + 1`
  simp only [addPairs, splat, Vector.get_eq_getElem, Vector.getElem_ofFn, Vector.getElem_replicate,
    hone, BitVec.mul_one]
  rw [hlane _ (by omega), hlane _ (by omega)]
  simp [sum_range_succ]

end Register

/-! ## §3. Blocks. -/

namespace Sad.Wide

variable {width height : Nat}

theorem wrappedSum_rowTerms (hw : 16 ∣ width) (f g : Nat → Sample .word) :
    ((rowTerms width f g).map Register.wrappedSum).sum
      = ∑ x ∈ range width, ((readSigned (distance (f x).toNat (g x).toNat) : Int) : BitVec 32) := by
  show (((starts width 16).map _).map Register.wrappedSum).sum = _
  rw [List.map_map, ← sum_starts hw]
  apply congrArg List.sum
  apply List.map_congr_left
  intro x _
  exact Register.wrappedSum_addPairs_wordDistances f g x

/-- **A block's accumulator holds its distances as they are read.** -/
theorem wrappedSum_blockAccumulator (hw : 16 ∣ width) (f g : Nat → Nat → Sample .word) :
    Register.wrappedSum (blockAccumulator width height f g)
      = (((cost width height f g : Int) - 2 ^ 16 * (farCells width height f g).card : Int)
          : BitVec 32) := by
  have hrows : ((blockTerms width height f g).map Register.wrappedSum).sum
      = ∑ y ∈ range height, ∑ x ∈ range width,
          ((readSigned (distance (f x y).toNat (g x y).toNat) : Int) : BitVec 32) := by
    rw [blockTerms, sum_map_flatMap, ← sum_map_range]
    apply congrArg List.sum
    apply List.map_congr_left
    intro y _
    exact wrappedSum_rowTerms hw (f · y) (g · y)
  have hfold : Register.wrappedSum (blockAccumulator width height f g)
      = Register.wrappedSum (Register.zero 32 8)
        + ((blockTerms width height f g).map Register.wrappedSum).sum :=
    Register.wrappedSum_foldl (blockTerms width height f g) (Register.zero 32 8)
  rw [hfold, Register.wrappedSum_zero, zero_add, hrows, ← sum_readSigned]
  push_cast
  rfl

/-- What is read back is wrapped once. -/
theorem total_blockAccumulator_word (hw : 16 ∣ width) (f g : Nat → Nat → Sample .word) :
    ((blockAccumulator width height f g).total : Int)
      = ((cost width height f g : Int) - 2 ^ 16 * (farCells width height f g).card) % 2 ^ 32 := by
  have htotal : (blockAccumulator width height f g).total
      = (Register.wrappedSum (blockAccumulator width height f g)).toNat :=
    congrArg BitVec.toNat (Register.sum32_eq_wrappedSum _)
  rw [htotal, wrappedSum_blockAccumulator hw]
  show ((BitVec.ofInt 32 _).toNat : Int) = _
  rw [BitVec.toNat_ofInt]
  omega

end Sad.Wide

/-! ## §4. The wide answers beside the exact ones. -/

namespace Sad

/-- How a wide cost of words comes out beside the exact one, for two matrices over a block. -/
structure FallsShort (block : BlockSize) (f g : Nat → Nat → Sample .word) (exact answer : Nat) :
    Prop where
  /-- Every far position counts 2 ^ 16 too little, modulo 2 ^ 32. -/
  wraps : (answer : Int)
    = ((exact : Int) - 2 ^ 16 * (farCells block.width block.height f g).card) % 2 ^ 32
  agrees : answer = exact
    ↔ ∀ x < block.width, ∀ y < block.height, distance (f x y).toNat (g x y).toNat ≤ 32767

variable {block : BlockSize}

/-- **A wide cost falls short by its far positions, and only by them.** -/
theorem fallsShort_blockAccumulator (hwide : 16 ≤ block.width) (f g : Nat → Nat → Sample .word) :
    FallsShort block f g (cost block.width block.height f g)
      (Wide.blockAccumulator block.width block.height f g).total := by
  have hw : 16 ∣ block.width := by cases block <;> revert hwide <;> decide
  have hwraps := @Wide.total_blockAccumulator_word block.width block.height hw f g
  refine ⟨hwraps, ?_⟩
  rw [← card_farCells_eq_zero_iff]
  have hlt := cost_lt block.width_le block.height_le f g
  -- 4096 positions of 2 ^ 16 each are less than the whole circle
  have hfew : (farCells block.width block.height f g).card ≤ 64 * 64 :=
    (card_farCells_le ..).trans (Nat.mul_le_mul block.width_le block.height_le)
  constructor
  · intro hagree
    rw [hagree] at hwraps
    omega
  · intro hnone
    rw [hnone] at hwraps
    omega

theorem FallsShort.eq_emod {f g : Nat → Nat → Sample .word} {exact answer far : Nat}
    (h : FallsShort block f g exact answer)
    (hfar : (farCells block.width block.height f g).card = far) :
    (answer : Int) = ((exact : Int) - 2 ^ 16 * far) % 2 ^ 32 := by
  rw [← hfar]
  exact h.wraps

/-- Samples of one depth are never far apart. -/
theorem FallsShort.eq_of_le {f g : Nat → Nat → Sample .word} {exact answer : Nat}
    (h : FallsShort block f g exact answer) {depth : Depth}
    (hf : ∀ x < block.width, ∀ y < block.height, (f x y).toNat ≤ depth.max)
    (hg : ∀ x < block.width, ∀ y < block.height, (g x y).toNat ≤ depth.max) : answer = exact := by
  refine h.agrees.mpr fun x hx y hy => ?_
  have hlt := Kernels.distance_lt_of_le (hf x hx y hy) (hg x hx y hy)
  omega

/-- **The wide kernels for words answer the portable cost less 2 ^ 16 for every far position**,
whatever is in the words: against one reference, against four of one stride, and against an average. -/
theorem wide_word_costs_fall_short (hwide : 16 ≤ block.width) {source : Plane .word}
    (hs : source.fits block.width block.height = .ok true) :
    (∀ reference : Plane .word, reference.fits block.width block.height = .ok true →
      ∃ exact answer, Portable.sad block.width block.height source reference = .ok exact ∧
        Wide.sad block.width block.height source reference = .ok answer ∧
        FallsShort block source.pixel reference.pixel exact answer ∧
        ∀ depth, Kernels.InRange depth block source → Kernels.InRange depth block reference →
          answer = exact) ∧
    (∀ references : Vector (Plane .word) 4,
      (∀ r ∈ references, r.fits block.width block.height = .ok true) →
      (∀ p ∈ references, ∀ q ∈ references, p.stride = q.stride) →
      ∃ exacts answers, Portable.sadX4 block.width block.height source references = .ok exacts ∧
        Wide.sadX4 block.width block.height source references = .ok answers ∧
        ∀ i (_ : i < 4), FallsShort block source.pixel references[i].pixel exacts[i] answers[i] ∧
          ∀ depth, Kernels.InRange depth block source → Kernels.InRange depth block references[i] →
            answers[i] = exacts[i]) ∧
    ∀ (reference : Plane .word) (second : Array (Sample .word)),
      reference.fits block.width block.height = .ok true → block.area ≤ second.size →
      ∃ exact answer, Portable.sadAvg block.width block.height source reference second = .ok exact ∧
        Wide.sadAvg block.width block.height source reference second = .ok answer ∧
        FallsShort block source.pixel
          (fun x y => mean (reference.pixel x y) (packed block.width second x y)) exact answer ∧
        ∀ depth, Kernels.InRange depth block source → Kernels.InRange depth block reference →
          (∀ x < block.width, ∀ y < block.height,
            (packed block.width second x y).toNat ≤ depth.max) → answer = exact := by
  have hw := block.width_le
  have hh := block.height_le
  refine ⟨?_, ?_, ?_⟩
  · intro reference hr
    have hshort := fallsShort_blockAccumulator hwide source.pixel reference.pixel
    exact ⟨_, _, Portable.sad_of_fits hw hh hs hr, Wide.sad_of_fits_eq_total hw hh hs hr, hshort,
      fun depth hsource hreference => hshort.eq_of_le hsource hreference⟩
  · intro references hr hstride
    have hcommon := Portable.commonStride_eq_true_iff.mpr hstride
    refine ⟨_, _, Portable.sadX4_of_fits hw hh hs hr hcommon,
      Wide.sadX4_of_fits_eq_total hw hh hs hr, ?_⟩
    intro i hi
    have hshort := fallsShort_blockAccumulator hwide source.pixel references[i].pixel
    rw [Vector.getElem_map, Vector.getElem_map]
    exact ⟨hshort, fun depth hsource hreference => hshort.eq_of_le hsource hreference⟩
  · intro reference second hr hcover
    have hshort := fallsShort_blockAccumulator hwide source.pixel
      fun x y => mean (reference.pixel x y) (packed block.width second x y)
    refine ⟨_, _, Portable.sadAvg_of_fits hw hh hs hr hcover,
      Wide.sadAvg_of_fits_eq_total hw hh hs hr hcover, hshort, ?_⟩
    intro depth hsource hreference hsecond
    -- averages of samples in range are in range
    exact hshort.eq_of_le hsource fun x hx y hy =>
      Kernels.toNat_mean_le (hreference x hx y hy) (hsecond x hx y hy)

/-- One row of words, read over and over; the first of them is bright. -/
def brightColumn : Plane .word :=
  ⟨Array.ofFn fun i : Fin 16 => if i.val = 0 then 40000 else 10, 0, 0⟩

/-- One row of zeros, read over and over. -/
def blackRow : Plane .word := ⟨Array.replicate 16 0, 0, 0⟩

/-- Eight far positions lose more than the block costs, so the wide answer wraps below zero; against
an average it only comes out too small, and a black block costs nothing. -/
theorem wide_cost_of_brightColumn :
    16 ≤ BlockSize.width .b16x8 ∧ blackRow.fits 16 8 = .ok true ∧ brightColumn.fits 16 8 = .ok true ∧
    Kernels.InRange .twelve .b16x8 blackRow ∧
    Portable.sad 16 8 blackRow brightColumn = .ok 321200 ∧
    Wide.sad 16 8 blackRow brightColumn = .ok 4294764208 ∧
    (∃ answers, Wide.sadX4 16 8 blackRow #v[brightColumn, blackRow, brightColumn, blackRow]
      = .ok answers ∧ answers.get 0 = 4294764208 ∧ answers.get 1 = 0) ∧
    Wide.sadAvg 16 8 blackRow brightColumn (Array.replicate 128 40000) = .ok 2196312 := by
  have hblack : blackRow.fits 16 8 = .ok true := by decide +kernel
  have hbright : brightColumn.fits 16 8 = .ok true := by decide +kernel
  have hrange : Kernels.InRange .twelve .b16x8 blackRow := by decide +kernel
  have hall : ∀ r ∈ #v[brightColumn, blackRow, brightColumn, blackRow], r.fits 16 8 = .ok true := by
    simp [hblack, hbright]
  have hfar : (farCells 16 8 blackRow.pixel brightColumn.pixel).card = 8 := by decide +kernel
  obtain ⟨hsingle, hbatch, haverage⟩ :=
    @wide_word_costs_fall_short .b16x8 (by decide) blackRow hblack
  obtain ⟨exact, answer, hexact, hanswer, hshort, -⟩ := hsingle brightColumn hbright
  obtain ⟨exacts, answers, hexacts, hanswers, hfour⟩ :=
    hbatch _ hall (by simp [brightColumn, blackRow])
  obtain ⟨exactMean, mean, hexactMean, hmean, hshortMean, -⟩ :=
    haverage brightColumn (Array.replicate 128 40000) hbright (by decide +kernel)
  -- the exact costs are those of the portable kernels
  have hcost : Portable.sad 16 8 blackRow brightColumn = .ok 321200 := by decide +kernel
  have hcosts : Portable.sadX4 16 8 blackRow #v[brightColumn, blackRow, brightColumn, blackRow]
      = .ok #v[321200, 0, 321200, 0] := by decide +kernel
  have hcostMean : Portable.sadAvg 16 8 blackRow brightColumn (Array.replicate 128 40000)
      = .ok 2720600 := by decide +kernel
  obtain rfl : exact = 321200 := Except.ok.inj (hexact.symm.trans hcost)
  obtain rfl : exacts = #v[321200, 0, 321200, 0] := Except.ok.inj (hexacts.symm.trans hcosts)
  obtain rfl : exactMean = 2720600 := Except.ok.inj (hexactMean.symm.trans hcostMean)
  have hwraps := hshort.eq_emod hfar
  have hfirst : (answers.get 0 : Int) = ((321200 : Nat) - 2 ^ 16 * (8 : Nat)) % 2 ^ 32 :=
    (hfour 0 (by omega)).1.eq_emod hfar
  have hsecond : answers.get 1 = 0 := (hfour 1 (by omega)).2 .twelve hrange hrange
  have hfarMean : (farCells 16 8 blackRow.pixel fun x y =>
      Sad.mean (brightColumn.pixel x y) (packed 16 (Array.replicate 128 40000) x y)).card = 8 := by
    decide +kernel
  have hwrapsMean := hshortMean.eq_emod hfarMean
  obtain rfl : answer = 4294764208 := by omega
  obtain rfl : mean = 2196312 := by omega
  exact ⟨by decide, hblack, hbright, hrange, hcost, hanswer, ⟨answers, hanswers, by omega, hsecond⟩,
    hmean⟩

end Sad

end PixelKernels
