/-
  PixelKernels.Depth
  ──────────────────
  **SAMPLES: HOW THEY ARE STORED AND HOW DEEP THEY ARE.**

  A sample sits in a cell of one of two widths (`Storage`), and carries one
  of three logical depths (`Depth`).  The cell bounds what a buffer can
  hold; the depth bounds what a picture means by it:

      depth    maximum   middle   cell
      8 bit        255      128   byte
      10 bit      1023      512   word
      12 bit      4095     2048   word

  A 10- or 12-bit sample is therefore a cell that could hold more than the
  depth allows, and every entry point has to check the difference.
-/
namespace PixelKernels

/-! ## §1. Storage cells. -/

/-- The cell in which one sample is stored. -/
inductive Storage where
  /-- Eight bits. -/
  | byte
  /-- Sixteen bits. -/
  | word
  deriving Repr, DecidableEq, Inhabited

namespace Storage

/-- Width of the cell in bits. -/
@[reducible] def bits : Storage → Nat
  | .byte => 8
  | .word => 16

/-- The name under which messages and inputs know the cell. -/
def name : Storage → String
  | .byte => "u8"
  | .word => "u16"

/-- The name of the class of kernels that work on this cell. -/
def className : Storage → String
  | .byte => "BPC8"
  | .word => "BPC16"

/-- Both cells. -/
def all : List Storage := [.byte, .word]

end Storage

/-- One stored sample: any value that the cell can hold. -/
abbrev Sample (s : Storage) := BitVec s.bits

/-! ## §2. Logical depths. -/

/-- How many bits of a sample carry meaning. -/
inductive Depth where
  /-- Eight bits per sample. -/
  | eight
  /-- Ten bits per sample. -/
  | ten
  /-- Twelve bits per sample. -/
  | twelve
  deriving Repr, DecidableEq, Inhabited

namespace Depth

/-- Every depth, shallowest first. -/
def all : List Depth := [.eight, .ten, .twelve]

/-- Number of significant bits. -/
def bits : Depth → Nat
  | .eight => 8
  | .ten => 10
  | .twelve => 12

/-- The largest valid sample, `2 ^ bits - 1`. -/
def max (d : Depth) : Nat := (1 <<< d.bits) - 1

/-- The middle of the range, `2 ^ (bits - 1)`. -/
def mid (d : Depth) : Nat := 1 <<< (d.bits - 1)

/-- The cell that stores samples of this depth. -/
def storage : Depth → Storage
  | .eight => .byte
  | .ten => .word
  | .twelve => .word

/-- The text of a depth, as in `10bpc`. -/
def name (d : Depth) : String := toString d.bits ++ "bpc"

/-- Shallower depths come first. -/
def before (a b : Depth) : Bool := a.bits ≤ b.bits

end Depth

/-- Whether samples of depth `d` are stored in this cell. -/
def Storage.stores (s : Storage) (d : Depth) : Bool := d.storage == s

namespace Depth

theorem max_add_one (d : Depth) : d.max + 1 = 1 <<< d.bits := by cases d <;> rfl

theorem two_mul_mid (d : Depth) : 2 * d.mid = d.max + 1 := by cases d <;> rfl

theorem mid_le_max (d : Depth) : d.mid ≤ d.max := by cases d <;> decide

theorem mid_pos (d : Depth) : 0 < d.mid := by cases d <;> decide

/-- Every valid sample fits the cell that stores the depth. -/
theorem max_lt_two_pow_storage (d : Depth) : d.max < 1 <<< d.storage.bits := by
  cases d <;> decide

end Depth

@[simp] theorem Storage.stores_iff {s : Storage} {d : Depth} :
    s.stores d = true ↔ d.storage = s := by
  simp [Storage.stores]

end PixelKernels
