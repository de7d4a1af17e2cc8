/-
  PixelKernels.Catalog.BlockSize
  ──────────────────────────────
  **THE THIRTEEN BLOCK GEOMETRIES.**

  Blocks are listed by area and, at equal area, by width.  Their order in
  the list is their order as values, so sorting blocks and walking the
  catalog agree.
-/
namespace PixelKernels

/-- A block geometry, named width by height. -/
inductive BlockSize where
  | b4x4 | b4x8 | b8x4 | b8x8 | b8x16 | b16x8 | b16x16
  | b16x32 | b32x16 | b32x32 | b32x64 | b64x32 | b64x64
  deriving Repr, DecidableEq, Inhabited

namespace BlockSize

/-- Every block size, smallest first. -/
def all : List BlockSize :=
  [.b4x4, .b4x8, .b8x4, .b8x8, .b8x16, .b16x8, .b16x16,
    .b16x32, .b32x16, .b32x32, .b32x64, .b64x32, .b64x64]

/-- Columns of the block. -/
def width : BlockSize → Nat
  | .b4x4 | .b4x8 => 4
  | .b8x4 | .b8x8 | .b8x16 => 8
  | .b16x8 | .b16x16 | .b16x32 => 16
  | .b32x16 | .b32x32 | .b32x64 => 32
  | .b64x32 | .b64x64 => 64

/-- Rows of the block. -/
def height : BlockSize → Nat
  | .b4x4 | .b8x4 => 4
  | .b4x8 | .b8x8 | .b16x8 => 8
  | .b8x16 | .b16x16 | .b32x16 => 16
  | .b16x32 | .b32x32 | .b64x32 => 32
  | .b32x64 | .b64x64 => 64

/-- Number of samples in the block. -/
def area (b : BlockSize) : Nat := b.width * b.height

/-- Whether the block is as high as it is wide. -/
def isSquare (b : BlockSize) : Bool := b.width == b.height

/-- Position in the catalog. -/
def rank : BlockSize → Nat
  | .b4x4 => 0
  | .b4x8 => 1
  | .b8x4 => 2
  | .b8x8 => 3
  | .b8x16 => 4
  | .b16x8 => 5
  | .b16x16 => 6
  | .b16x32 => 7
  | .b32x16 => 8
  | .b32x32 => 9
  | .b32x64 => 10
  | .b64x32 => 11
  | .b64x64 => 12

/-- Blocks earlier in the catalog come first. -/
def before (a b : BlockSize) : Bool := a.rank ≤ b.rank

/-- The text of a block size, as in `16x8`. -/
def name (b : BlockSize) : String := toString b.width ++ "x" ++ toString b.height

/-- The block size spelled out as a noun, as in `Block16x8`. -/
def label (b : BlockSize) : String := "Block" ++ b.name

/-- The catalog entry with these dimensions. -/
def ofDimensions? (width height : Nat) : Option BlockSize :=
  all.find? fun b => b.width == width && b.height == height

theorem mem_all (b : BlockSize) : b ∈ all := by cases b <;> decide

/-- Dimensions identify a block. -/
theorem ofDimensions?_eq_some_iff {w h : Nat} {b : BlockSize} :
    ofDimensions? w h = some b ↔ b.width = w ∧ b.height = h := by
  constructor
  · intro found
    have := List.find?_some found
    simpa using this
  · rintro ⟨rfl, rfl⟩
    cases b <;> rfl

theorem width_pos (b : BlockSize) : 0 < b.width := by cases b <;> decide

theorem height_pos (b : BlockSize) : 0 < b.height := by cases b <;> decide

theorem width_le (b : BlockSize) : b.width ≤ 64 := by cases b <;> decide

theorem height_le (b : BlockSize) : b.height ≤ 64 := by cases b <;> decide

end BlockSize

end PixelKernels
