/-
  PixelKernels.Painting
  ─────────────────────
  **WRITING A BLOCK OF ROWS INTO A PLANE.**

  A painting is a buffer after an attempt to write, together with how the
  attempt ended.  The buffer is kept in either case, so what a failed
  attempt has already written stays visible.

  Rows are written top to bottom.  Where rows overlap, the lowest row that
  covers a position is the one that stays.
-/
import PixelKernels.Plane

namespace PixelKernels

/-! ## §1. Blocks and paintings. -/

/-- A block of samples, row by row from the top. -/
abbrev Block (s : Storage) := List (List (Sample s))

/-- A buffer after an attempt to write into it. -/
structure Painting (s : Storage) where
  /-- The buffer as it is now. -/
  buffer : Array (Sample s)
  /-- How the attempt ended. -/
  outcome : Outcome Unit

/-- The painting of an attempt that ended before it wrote anything. -/
def Painting.refused {s : Storage} (buffer : Array (Sample s)) (fault : Fault) : Painting s :=
  ⟨buffer, .error fault⟩

/-! ## §2. Writing. -/

/-- Stores `values` one after another from position `start` on. -/
def overwrite {α : Type} (buffer : Array α) (start : Nat) : List α → Array α
  | [] => buffer
  | v :: rest => overwrite (buffer.setIfInBounds start v) (start + 1) rest

namespace Plane

variable {s : Storage}

/-- Writes `rows` as the rows `y`, `y + 1`, … of the plane, into a buffer of the plane's shape. -/
def paintFrom (p : Plane s) (buffer : Array (Sample s)) (y : Nat) : Block s → Painting s
  | [] => ⟨buffer, .ok ()⟩
  | row :: rest =>
      match p.rowStart y with
      | .error fault => .refused buffer fault
      | .ok start =>
          if start + row.length ≤ buffer.size then
            p.paintFrom (overwrite buffer start row) (y + 1) rest
          else .refused buffer .index

/-- Writes a block at the plane's origin. -/
def paint (p : Plane s) (block : Block s) : Painting s := p.paintFrom p.data 0 block

/-- Writes the block that a computation gives, or nothing if it gives none. -/
def paintOutcome (p : Plane s) : Outcome (Block s) → Painting s
  | .ok block => p.paint block
  | .error fault => .refused p.data fault

end Plane

/-! ## §3. Laws of writing. -/

@[simp] theorem size_overwrite {α : Type} (buffer : Array α) (start : Nat) (values : List α) :
    (overwrite buffer start values).size = buffer.size := by
  induction values generalizing buffer start with
  | nil => rfl
  | cons v rest ih => simp [overwrite, ih]

/-- A position outside the written range keeps its value. -/
theorem getElem?_overwrite_of_outside {α : Type} {buffer : Array α} {start i : Nat}
    {values : List α} (outside : i < start ∨ start + values.length ≤ i) :
    (overwrite buffer start values)[i]? = buffer[i]? := by
  induction values generalizing buffer start with
  | nil => rfl
  | cons v rest ih =>
    simp only [List.length_cons] at outside
    rw [overwrite, ih (by omega), Array.getElem?_setIfInBounds_ne (by omega)]

/-- A position inside the written range holds what was written there. -/
theorem getElem?_overwrite_of_inside {α : Type} {buffer : Array α} {start k : Nat}
    {values : List α} (room : start + values.length ≤ buffer.size) (inside : k < values.length) :
    (overwrite buffer start values)[start + k]? = values[k]? := by
  induction values generalizing buffer start k with
  | nil => simp at inside
  | cons v rest ih =>
    simp only [List.length_cons] at room inside
    cases k with
    | zero =>
      rw [overwrite, getElem?_overwrite_of_outside (by omega)]
      simp [show start < buffer.size by omega]
    | succ k =>
      rw [overwrite, show start + (k + 1) = start + 1 + k by omega,
        ih (by simp; omega) (by omega)]
      simp

@[simp] theorem Painting.buffer_refused {s : Storage} (buffer : Array (Sample s)) (f : Fault) :
    (Painting.refused buffer f).buffer = buffer := rfl

@[simp] theorem Painting.outcome_refused {s : Storage} (buffer : Array (Sample s)) (f : Fault) :
    (Painting.refused buffer f).outcome = .error f := rfl

end PixelKernels
