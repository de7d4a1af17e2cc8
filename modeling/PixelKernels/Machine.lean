/-
  PixelKernels.Machine
  ────────────────────
  **INTEGERS OF THE MACHINE, AND WHAT HAPPENS AT THEIR ENDS.**

  Costs are 32-bit and unsigned, positions 64-bit and signed.  Arithmetic is
  done on `Nat` and `Int`, and a result outside the type is the fault
  `overflow`: nothing wraps silently.  The one reading that does wrap is
  `signed`, by which a 64-bit size is taken for a 64-bit position.
-/
import PixelKernels.Fault

namespace PixelKernels

/-! ## §1. Thirty-two unsigned bits. -/

/-- A value as a 32-bit unsigned integer. -/
def asUInt32 (n : Nat) : Outcome Nat :=
  if n < 1 <<< 32 then .ok n else .error .overflow

/-- The largest 32-bit unsigned integer. -/
def uint32Max : Nat := (1 <<< 32) - 1

/-- A running 32-bit sum, checked at each step. -/
def sumUInt32 (values : List Nat) : Outcome Nat :=
  values.foldlM (fun total v => asUInt32 (total + v)) 0

/-! ## §2. Sixty-four bits. -/

/-- A value as a 64-bit signed integer. -/
def asInt64 (v : Int) : Outcome Int :=
  if -(1 <<< 63 : Nat) ≤ v ∧ v < (1 <<< 63 : Nat) then .ok v else .error .overflow

/-- A value as a 64-bit unsigned integer. -/
def asUInt64 (n : Nat) : Outcome Nat :=
  if n < 1 <<< 64 then .ok n else .error .overflow

/-- A 64-bit size read as a signed position: the upper half of the sizes is negative. -/
def signed (n : Nat) : Int :=
  if n % (1 <<< 64) < 1 <<< 63 then (n % (1 <<< 64) : Nat)
  else (n % (1 <<< 64) : Nat) - (1 <<< 64 : Nat)

/-! ## §3. Positions in a buffer. -/

/-- The element at a position. -/
def elementAt {α : Type} (data : Array α) (i : Nat) : Outcome α :=
  match data[i]? with
  | some v => .ok v
  | none => .error .index

/-- The `length` elements from `start` on. -/
def slice {α : Type} (data : Array α) (start length : Nat) : Outcome (List α) :=
  if start + length ≤ data.size then .ok (data.extract start (start + length)).toList
  else .error .index

/-! ## §4. Laws. -/

@[simp] theorem asUInt32_eq_ok_iff {n m : Nat} : asUInt32 n = .ok m ↔ n = m ∧ n < 1 <<< 32 := by
  unfold asUInt32
  split <;> simp only [Except.ok.injEq, reduceCtorEq, false_iff, not_and] <;> omega

theorem asUInt32_of_lt {n : Nat} (h : n < 1 <<< 32) : asUInt32 n = .ok n := if_pos h

@[simp] theorem asInt64_eq_ok_iff {v w : Int} :
    asInt64 v = .ok w ↔ v = w ∧ -(1 <<< 63 : Nat) ≤ v ∧ v < (1 <<< 63 : Nat) := by
  unfold asInt64
  split <;> simp only [Except.ok.injEq, reduceCtorEq, false_iff, not_and] <;> omega

theorem asInt64_of_range {v : Int} (lo : -(1 <<< 63 : Nat) ≤ v) (hi : v < (1 <<< 63 : Nat)) :
    asInt64 v = .ok v :=
  if_pos ⟨lo, hi⟩

/-- Sizes in the lower half are read as they are. -/
theorem signed_of_lt {n : Nat} (h : n < 1 <<< 63) : signed n = n := by
  unfold signed
  simp only [Nat.reduceShiftLeft] at h ⊢
  split <;> omega

theorem signed_range (n : Nat) :
    -(1 <<< 63 : Nat) ≤ signed n ∧ signed n < (1 <<< 63 : Nat) := by
  unfold signed
  simp only [Nat.reduceShiftLeft]
  split <;> omega

@[simp] theorem elementAt_eq_ok_iff {α : Type} {data : Array α} {i : Nat} {v : α} :
    elementAt data i = .ok v ↔ data[i]? = some v := by
  unfold elementAt; split <;> simp_all

/-- A slice inside the buffer reads that part of it. -/
theorem slice_of_le {α : Type} {data : Array α} {start length : Nat}
    (h : start + length ≤ data.size) :
    slice data start length = .ok ((data.toList.drop start).take length) := by
  simp [slice, h, List.extract_eq_take_drop]

theorem slice_eq_ok_iff {α : Type} {data : Array α} {start length : Nat} {row : List α} :
    slice data start length = .ok row ↔
      start + length ≤ data.size ∧ (data.toList.drop start).take length = row := by
  by_cases h : start + length ≤ data.size
  · simp [slice_of_le h, h]
  · simp [slice, h]

end PixelKernels
