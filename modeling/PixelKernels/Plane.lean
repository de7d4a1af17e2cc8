/-
  PixelKernels.Plane
  ──────────────────
  **STRIDED TWO-DIMENSIONAL VIEWS OF A BUFFER.**

  A plane is a buffer, the position of its first row and a signed stride:
  row `y` starts at `base + y * stride`.  The stride may be larger than,
  equal to or smaller than the width of what is read, zero or negative, so
  rows may overlap, coincide or run upwards through the buffer.

  `Plane.span` is the range of positions that a rectangle touches, computed
  in 64-bit signed arithmetic that faults instead of wrapping.
  `Plane.checkFit` refuses a rectangle whose span leaves the buffer; what it
  accepts, `Plane.row` reads without a fault.
-/
import PixelKernels.Machine

namespace PixelKernels

/-! ## §1. Planes. -/

/-- A view of a buffer as rows of samples. -/
structure Plane (s : Storage) where
  /-- The samples that the rows are cut from. -/
  data : Array (Sample s)
  /-- Position of the first row. -/
  base : Nat
  /-- Distance from the start of one row to the start of the next. -/
  stride : Int
  deriving DecidableEq

namespace Plane

variable {s : Storage}

/-- The plane whose first row starts the buffer; the stride is a 64-bit size. -/
def contiguous (data : Array (Sample s)) (stride : Nat) : Plane s :=
  ⟨data, 0, signed stride⟩

/-- The same rows at another distance. -/
def withStride (p : Plane s) (stride : Int) : Plane s := { p with stride }

/-- The plane moved by `delta` positions, which must not lead before the buffer. -/
def offset (p : Plane s) (delta : Int) : Outcome (Plane s) := do
  let base ← asInt64 (signed p.base + delta)
  Outcome.require (0 ≤ base) .assertion
  pure { p with base := base.toNat }

/-! ## §2. Fit. -/

/-- A range of positions, from `low` up to but not including `high`. -/
structure Span where
  low : Int
  high : Int
  deriving Repr, DecidableEq

/-- The positions that a rectangle touches; a rectangle without rows counts as one row. -/
def span (base : Nat) (stride : Int) (width height : Nat) : Outcome Span := do
  let first := signed base
  -- from the first row to the last
  let steps ← asInt64 (signed (max height 1) - 1)
  let rise ← asInt64 (steps * stride)
  let last ← asInt64 (first + rise)
  -- either of the two may be the higher one
  let high ← asInt64 (max first last + signed width)
  pure ⟨min first last, high⟩

/-- Whether a rectangle with this span lies inside a buffer of this length. -/
def Span.check (span : Span) (length : Nat) : Except Error Unit :=
  let needed := span.high.toNat
  if 0 ≤ span.low ∧ needed ≤ length then .ok () else .error (.bufferTooSmall needed length)

/-- Refuses a rectangle that does not lie inside the buffer. -/
def checkFit (p : Plane s) (width height : Nat) : Outcome Unit := do
  let span ← span p.base p.stride width height
  Outcome.ofRefusal (span.check p.data.size)

/-- Whether a rectangle lies inside the buffer. -/
def fits (p : Plane s) (width height : Nat) : Outcome Bool := do
  let span ← span p.base p.stride width height
  pure (span.check p.data.size).isOk

/-- The plane with these rows, if it holds the rectangle. -/
def checked (data : Array (Sample s)) (base : Nat) (stride : Int) (width height : Nat) :
    Outcome (Plane s) := do
  let p : Plane s := ⟨data, base, stride⟩
  p.checkFit width height
  pure p

/-- The kernels' own check that their block lies inside the plane. -/
def assertFits (p : Plane s) (width height : Nat) : Outcome Unit := do
  Outcome.require (← p.fits width height)
    (.violation (.blockExceedsBuffer width height p.base p.stride p.data.size))

/-! ## §3. Rows. -/

/-- Position at which row `y` starts. -/
def rowStart (p : Plane s) (y : Nat) : Outcome Nat := do
  let rise ← asInt64 (signed y * p.stride)
  let start ← asInt64 (signed p.base + rise)
  Outcome.require (0 ≤ start) (.violation (.rowBeforeBuffer y))
  pure start.toNat

/-- The first `width` samples of row `y`. -/
def row (p : Plane s) (y width : Nat) : Outcome (List (Sample s)) := do
  slice p.data (← p.rowStart y) width

/-- The sample in column `x` of row `y`, each step of the way checked. -/
def sampleAt (p : Plane s) (x y : Nat) : Outcome Nat := do
  let rise ← asInt64 (signed y * p.stride)
  let start ← asInt64 (signed p.base + rise)
  let position ← asInt64 (start + x)
  Outcome.require (0 ≤ position) .index
  let sample ← elementAt p.data position.toNat
  pure sample.toNat

end Plane

end PixelKernels
