/-
  PixelKernels.Rounding
  ─────────────────────
  **AVERAGES AND SHIFTS THAT ROUND HALF UP.**

      avg2 x y      ⌊(x + y + 1) / 2⌋
      avg3 x y z    ⌊(x + 2y + z + 2) / 4⌋
      round2 v s    ⌊(v + 2^(s-1)) / 2^s⌋, and v itself at s = 0

  Each is computed left to right in 32 bits and faults where one of its
  intermediate values leaves them.
-/
import PixelKernels.Machine

namespace PixelKernels

/-- Two-tap average, a half rounded up. -/
def avg2 (x y : Nat) : Outcome Nat := do
  let sum ← asUInt32 (x + y)
  let sum ← asUInt32 (sum + 1)
  pure (sum / 2)

/-- Three-tap average with a double centre, a half rounded up. -/
def avg3 (x y z : Nat) : Outcome Nat := do
  let centre ← asUInt32 (2 * y)
  let sum ← asUInt32 (x + centre)
  let sum ← asUInt32 (sum + z)
  let sum ← asUInt32 (sum + 2)
  pure (sum / 4)

/-- Division by a power of two, a half rounded up. -/
def round2 (v shift : Nat) : Outcome Nat :=
  if shift = 0 then .ok v
  else if 32 ≤ shift then .error .overflow
  else do
    let sum ← asUInt32 (v + (1 <<< (shift - 1)))
    pure (sum >>> shift)

/-- The exponent of the largest power of two that is not above `v`. -/
def ulog2 (v : Nat) : Outcome Nat :=
  if v = 0 then .error .overflow else .ok v.log2

/-- `v` moved to the nearest point of the interval, which must not be empty. -/
def clip (v low high : Int) : Outcome Int := do
  Outcome.require (low ≤ high) .assertion
  pure (if v < low then low else if v > high then high else v)

end PixelKernels
