/-
  PixelKernels.Sample
  ───────────────────
  **NUMBERS INTO CELLS.**

  A kernel computes with numbers and stores cells.  `Sample.ofNat` is the
  narrowing that has to be right already: a number that the cell cannot hold
  is a fault, never a wrapped sample.  `SampleRange` is the class of depths
  that a kernel is compiled for; it is known by its maximum, and clipping
  into it always gives a sample.
-/
import PixelKernels.Machine

namespace PixelKernels

/-! ## §1. Narrowing. -/

/-- Stores a number that is already a valid sample. -/
def Sample.ofNat (s : Storage) (v : Nat) : Outcome (Sample s) :=
  if v < 1 <<< s.bits then .ok (BitVec.ofNat s.bits v) else .error .assertion

theorem Sample.ofNat_of_lt {s : Storage} {v : Nat} (h : v < 1 <<< s.bits) :
    Sample.ofNat s v = .ok (BitVec.ofNat s.bits v) := by
  simp [Sample.ofNat, h]

/-- What was stored reads back. -/
theorem Sample.toNat_of_ofNat {s : Storage} {v : Nat} {c : Sample s}
    (h : Sample.ofNat s v = .ok c) : c.toNat = v := by
  unfold Sample.ofNat at h
  split at h
  · next lt =>
    obtain rfl := Except.ok.inj h
    rw [Nat.one_shiftLeft] at lt
    simpa using Nat.mod_eq_of_lt lt
  · cases h

/-! ## §2. Ranges. -/

/-- The maxima of the depths that a cell stores. -/
def Storage.maxima : Storage → List Nat
  | .byte => [255]
  | .word => [1023, 4095]

/-- The valid samples of one depth, inside a cell that stores it. -/
structure SampleRange (s : Storage) where
  /-- The largest sample. -/
  max : Nat
  known : max ∈ s.maxima

namespace SampleRange

/-- The range with this maximum; any other maximum fails the check. -/
def ofMax (s : Storage) (max : Nat) : Outcome (SampleRange s) :=
  if known : max ∈ s.maxima then .ok ⟨max, known⟩ else .error .assertion

variable {s : Storage}

/-- Number of significant bits. -/
def bits (range : SampleRange s) : Nat := range.max.log2 + 1

/-- The middle of the range. -/
def mid (range : SampleRange s) : Sample s := BitVec.ofNat s.bits ((range.max + 1) / 2)

/-- The sample nearest to `v`. -/
def clip (range : SampleRange s) (v : Int) : Sample s :=
  BitVec.ofNat s.bits (min v.toNat range.max)

theorem max_lt (range : SampleRange s) : range.max < 1 <<< s.bits := by
  obtain ⟨max, known⟩ := range
  cases s <;> simp [Storage.maxima] at known <;> simp only [Storage.bits] <;> omega

@[simp] theorem toNat_clip (range : SampleRange s) (v : Int) :
    (range.clip v).toNat = min v.toNat range.max := by
  have := range.max_lt
  simp only [clip, BitVec.toNat_ofNat]
  exact Nat.mod_eq_of_lt (by omega)

@[simp] theorem toNat_mid (range : SampleRange s) :
    range.mid.toNat = (range.max + 1) / 2 := by
  have := range.max_lt
  simp only [mid, BitVec.toNat_ofNat]
  exact Nat.mod_eq_of_lt (by omega)

/-- A cell that stores a depth has the range of that depth. -/
theorem ofMax_depth (d : Depth) : ∃ range, ofMax d.storage d.max = .ok range ∧ range.max = d.max := by
  refine ⟨⟨d.max, by cases d <;> decide⟩, ?_, rfl⟩
  cases d <;> rfl

end SampleRange

end PixelKernels
