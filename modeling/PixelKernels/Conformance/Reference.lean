/-
  PixelKernels.Conformance.Reference
  ──────────────────────────────────
  **WHAT KERNELS OUGHT TO COMPUTE, SAMPLE BY SAMPLE.**

  The reference costs are plain double sums over the samples that two
  planes address.  The reference predictor evaluates each cell of a block
  on its own: for the slanted modes it follows the cell's ray to the border,
  seen as one line, and averages the samples around the point that the ray
  meets.  None of this shares code with the kernels.
-/
import PixelKernels.Intra.Edge
import PixelKernels.Painting

namespace PixelKernels.Reference

variable {s : Storage}

/-! ## §1. Costs. -/

/-- The cells of a block as (column, row), in raster order. -/
def cells (width height : Nat) : List (Nat × Nat) :=
  (List.range height).flatMap fun y => (List.range width).map fun x => (x, y)

/-- Sum of the absolute differences between the samples of two planes. -/
def sad (block : BlockSize) (source reference : Plane s) : Outcome Nat :=
  (cells block.width block.height).foldlM (fun total (x, y) => do
    let a ← source.sampleAt x y
    let b ← reference.sampleAt x y
    asUInt32 (total + (max a b - min a b))) 0

/-- The same against the average of a reference and a packed second predictor. -/
def sadAvg (block : BlockSize) (source reference : Plane s) (second : Array (Sample s)) :
    Outcome Nat :=
  (cells block.width block.height).foldlM (fun total (x, y) => do
    let r ← reference.sampleAt x y
    let p ← elementAt second (y * block.width + x)
    let sum ← asUInt32 (r + p.toNat)
    let sum ← asUInt32 (sum + 1)
    let b := sum / 2
    let a ← source.sampleAt x y
    asUInt32 (total + (max a b - min a b))) 0

/-! ## §2. Borders as lines. -/

/-- A sample of the border. -/
def borderSample (samples : Array (Sample s)) (i : Nat) : Outcome Nat := do
  pure (← elementAt samples i).toNat

/-- The border as one line: above samples from 0 on, the corner at -1, left samples below that. -/
def lineSample (edge : IntraEdge s) (i : Int) : Outcome Nat :=
  if 0 ≤ i then borderSample edge.above i.toNat
  else if i = -1 then pure edge.topLeft.toNat
  else borderSample edge.left (-i - 2).toNat

/-- The border as a ring: left samples upwards, the corner at `n`, above samples to the right. -/
def ringSample (n : Nat) (edge : IntraEdge s) (i : Int) : Outcome Nat :=
  if i < n then borderSample edge.left (n - 1 - i).toNat
  else if i = n then pure edge.topLeft.toNat
  else borderSample edge.above (i - n - 1).toNat

/-- Average of two samples, a half rounded up. -/
def mean2 (x y : Outcome Nat) : Outcome Nat := do
  let x ← x
  let y ← y
  let sum ← asUInt32 (x + y)
  let sum ← asUInt32 (sum + 1)
  pure (sum / 2)

/-- Average of three samples with a double centre, a half rounded up. -/
def mean3 (x y z : Outcome Nat) : Outcome Nat := do
  let x ← x
  let y ← y
  let z ← z
  let centre ← asUInt32 (2 * y)
  let sum ← asUInt32 (x + centre)
  let sum ← asUInt32 (sum + z)
  let sum ← asUInt32 (sum + 2)
  pure (sum / 4)

/-! ## §3. The predictor. -/

/-- Number of times that two divides a positive number. -/
def trailingZeros (n : Nat) : Nat :=
  if h : n = 0 then 64
  else if n % 2 = 1 then 0
  else trailingZeros (n / 2) + 1
termination_by n
decreasing_by omega

/-- A sum divided by two to the number of trailing zeros of `count`; an empty count has none. -/
def shiftDown (sum count : Nat) : Outcome Nat :=
  let shift := trailingZeros count
  if shift < 32 then pure (sum >>> shift) else .error .overflow

/-- The cell in row `r` and column `c` of the block that a kernel ought to predict. -/
def cell (kernel : IntraKernel) (n : Nat) (edge : IntraEdge s) (max : Nat)
    (sumAbove sumLeft : Nat) (r c : Nat) : Outcome Nat :=
  let a := borderSample edge.above
  let l := borderSample edge.left
  let e := lineSample edge
  match kernel with
  | .dc => do
      let sum ← asUInt32 (sumAbove + sumLeft)
      let sum ← asUInt32 (sum + n)
      shiftDown sum (2 * n)
  | .dcTop => do shiftDown (← asUInt32 (sumAbove + n / 2)) n
  | .dcLeft => do shiftDown (← asUInt32 (sumLeft + n / 2)) n
  | .dc128 => do pure ((← asUInt32 (max + 1)) / 2)
  | .v => a c
  | .h => l r
  | .tm => do
      let sum := (← a c : Int) + (← l r : Int) - (edge.topLeft.toNat : Int)
      pure (min sum.toNat max)
  | .d45 =>
      let i := r + c
      if i + 2 < 2 * n then mean3 (a i) (a (i + 1)) (a (i + 2)) else a (2 * n - 1)
  | .d117 =>
      let half := r / 2
      if half ≤ c then
        -- the ray leaves through the row above: at a sample, or between two
        let x : Int := c - half
        if r % 2 = 0 then mean2 (e (x - 1)) (e x) else mean3 (e (x - 2)) (e (x - 1)) (e x)
      else
        -- the ray leaves through the column to the left
        let y : Int := r - 2 * c
        mean3 (e (1 - y)) (e (-y)) (e (-1 - y))
  | .d135 =>
      let centre : Int := n + c - r
      let ring := ringSample n edge
      mean3 (ring (centre - 1)) (ring centre) (ring (centre + 1))

/-- Sum of the first `n` samples of a neighbour, which must have as many. -/
def neighbourSum (n : Nat) (samples : Array (Sample s)) : Outcome Nat := do
  let total ← sumUInt32 ((samples.toList.take n).map BitVec.toNat)
  Outcome.require (n ≤ samples.size) .index
  pure total

/-- The block of side `n` that a kernel ought to predict, in raster order. -/
def predict (kernel : IntraKernel) (n : Nat) (edge : IntraEdge s) (max : Nat) :
    Outcome (List Nat) := do
  let sumAbove ← neighbourSum n edge.above
  let sumLeft ← neighbourSum n edge.left
  (cells n n).mapM fun (c, r) => cell kernel n edge max sumAbove sumLeft r c

end PixelKernels.Reference
