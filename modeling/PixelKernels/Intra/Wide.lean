/-
  PixelKernels.Intra.Wide
  ───────────────────────
  **INTRA PREDICTION IN VECTOR REGISTERS.**

  For sides that are multiples of sixteen, the flat and the straight blocks
  and tm are written a register at a time.  Means are computed as in the
  portable kernels and then spread over all lanes.

  tm works in signed 16-bit lanes: above plus the row's difference between
  left and corner wraps at sixteen bits, which samples of up to twelve bits
  never reach.  Bytes are clipped by packing, which alternates the halves of
  its operands, so the packed quarters are put back in order; words are
  clipped by a maximum and a minimum.
-/
import PixelKernels.Intra.Portable
import PixelKernels.Lanes

namespace PixelKernels.Intra.Wide

variable {s : Storage}

/-! ## §1. Spreading one value. -/

/-- Lanes stored by one step of a row: a register of words, or up to a register of bytes. -/
def lanesPerStore (n : Nat) : Storage → Nat
  | .byte => if n = 16 then 16 else 32
  | .word => 16

/-- A row made of stores of one register after another. -/
def rowOf {k m : Nat} (registers : List (Register k m)) : List (BitVec k) :=
  registers.flatMap Vector.toList

/-- A row of side `n` with one value in every lane. -/
def splatRow (n : Nat) (v : Sample s) : List (Sample s) :=
  let lanes := lanesPerStore n s
  rowOf (List.replicate (n / lanes) (Register.splat lanes v))

/-- A block of one value. -/
def fill (n : Nat) (v : Sample s) : Block s := List.replicate n (splatRow n v)

/-- A mean cut to the cell. -/
def truncate (s : Storage) (mean : Nat) : Sample s := BitVec.ofNat s.bits mean

/-- Mean of `n` samples above and `n` to the left. -/
def dc (n : Nat) (edge : IntraEdge s) : Outcome (Block s) := do
  let above ← Portable.sumSamples (← edge.aboveRow n)
  let left ← Portable.sumSamples (← edge.leftColumn n)
  let mean ← round2 (← asUInt32 (above + left)) (← ulog2 (2 * n))
  pure (fill n (truncate s mean))

/-- Mean of `n` samples to the left. -/
def dcLeft (n : Nat) (edge : IntraEdge s) : Outcome (Block s) := do
  let mean ← round2 (← Portable.sumSamples (← edge.leftColumn n)) (← ulog2 n)
  pure (fill n (truncate s mean))

/-- Mean of `n` samples above. -/
def dcTop (n : Nat) (edge : IntraEdge s) : Outcome (Block s) := do
  let mean ← round2 (← Portable.sumSamples (← edge.aboveRow n)) (← ulog2 n)
  pure (fill n (truncate s mean))

/-- The middle of the range; bytes have one range only. -/
def dc128 (n : Nat) (max : Nat) : (s : Storage) → Outcome (Block s)
  | .byte => pure (fill (s := .byte) n (128 : BitVec 8))
  | .word => do
      let range ← SampleRange.ofMax .word max
      pure (fill n range.mid)

/-! ## §2. Repeating the border. -/

/-- The registers that hold the first `n` samples of a row. -/
def loadRow (n : Nat) (row : List (Sample s)) :
    Outcome (List (Register s.bits (lanesPerStore n s))) :=
  (List.range (n / lanesPerStore n s)).mapM fun i =>
    Register.load (lanesPerStore n s) row (lanesPerStore n s * i)

/-- Every row is the row above the block. -/
def v (n : Nat) (edge : IntraEdge s) : Outcome (Block s) := do
  let top ← loadRow n (← edge.aboveRow n)
  pure (List.replicate n (rowOf top))

/-- Every row spreads one sample of the left column. -/
def h (n : Nat) (edge : IntraEdge s) : Outcome (Block s) := do
  pure ((← edge.leftColumn n).map (splatRow n))

/-! ## §3. Above plus left minus corner. -/

/-- A value as a signed 16-bit integer. -/
def asInt16 (v : Int) : Outcome (BitVec 16) :=
  if -(1 <<< 15 : Nat) ≤ v ∧ v < (1 <<< 15 : Nat) then .ok (BitVec.ofInt 16 v) else .error .overflow

/-- The row's difference between left and corner, both read as signed 16-bit integers. -/
def slope (left corner : Sample s) : Outcome (BitVec 16) :=
  asInt16 ((left.setWidth 16).toInt - (corner.setWidth 16).toInt)

/-- The sixteen samples above from column `16 * i` on, in 16-bit lanes. -/
def widenedTop (row : List (Sample s)) (i : Nat) : Outcome (Register 16 16) := do
  pure ((← Register.load 16 row (16 * i)).widen 16)

/-- Which quarters the packed bytes are taken from: the second from the third, the others, of which
only the first is kept, from the first. -/
def packedOrder (quarter : Fin 4) : Fin 4 := ⟨if quarter.val = 1 then 2 else 0, by grind⟩

/-- Sixteen signed lanes clipped to bytes, in order. -/
def clipBytes (sum : Register 16 16) : Register 8 16 :=
  Register.lowHalf (n := 16) (Register.selectQuarters packedOrder (Register.packUnsigned sum sum))

/-- Sixteen signed lanes clipped to the range that starts at zero. -/
def clipWords (max : BitVec 16) (sum : Register 16 16) : Register 16 16 :=
  Register.minSigned (Register.maxSigned sum (Register.zero 16 16)) (Register.splat 16 max)

/-- One row of tm from the widened samples above. -/
def tmRow (max : Nat) (base : BitVec 16) (top : List (Register 16 16)) :
    (s : Storage) → List (Sample s)
  | .byte => rowOf (top.map fun t => clipBytes (t.add (Register.splat 16 base)))
  | .word => rowOf (top.map fun t =>
      clipWords (BitVec.ofNat 16 max) (t.add (Register.splat 16 base)))

/-- Above plus left minus corner, clipped. -/
def tm (n : Nat) (edge : IntraEdge s) (max : Nat) : Outcome (Block s) := do
  let row ← edge.aboveRow n
  let left ← edge.leftColumn n
  let top ← (List.range (n / 16)).mapM (widenedTop row)
  left.mapM fun l => do
    let base ← slope l edge.topLeft
    pure (tmRow max base top s)

/-! ## §4. All kernels. -/

/-- The block that a kernel predicts, if it is one of those that run in registers. -/
def block? (kernel : IntraKernel) (n : Nat) :
    Option (IntraEdge s → Nat → Outcome (Block s)) :=
  match kernel with
  | .dc => some fun edge _ => dc n edge
  | .dcLeft => some fun edge _ => dcLeft n edge
  | .dcTop => some fun edge _ => dcTop n edge
  | .dc128 => some fun _ max => dc128 n max s
  | .v => some fun edge _ => v n edge
  | .h => some fun edge _ => h n edge
  | .tm => some fun edge max => tm n edge max
  | .d45 | .d117 | .d135 => none

/-- The predictor of a kernel, if it is one of those that run in registers. -/
def predict? (kernel : IntraKernel) (n : Nat) :
    Option (Plane s → IntraEdge s → Nat → Painting s) :=
  (block? kernel n).map fun block destination edge max =>
    destination.paintOutcome do
      destination.assertFits n n
      edge.assertHolds kernel n
      block edge max

end PixelKernels.Intra.Wide
