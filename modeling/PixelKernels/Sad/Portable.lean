/-
  PixelKernels.Sad.Portable
  ─────────────────────────
  **SUMS OF ABSOLUTE DIFFERENCES, ONE SAMPLE AFTER ANOTHER.**

  These kernels run anywhere and work at every block size.  Each first
  checks for itself that its planes hold the block, then adds the rows up in
  a checked 32-bit sum.  The bounded kernel looks at its running sum after
  each row and stops once the sum is above the bound: what it returns is
  always the cost of some number of whole rows.
-/
import PixelKernels.Plane
import PixelKernels.Rounding

namespace PixelKernels.Sad.Portable

variable {s : Storage}

/-! ## §1. Rows. -/

/-- Distance between two numbers. -/
def distance (x y : Nat) : Nat := (x - y) + (y - x)

/-- Cost of one row against another. -/
def rowCost (source reference : List (Sample s)) : Outcome Nat :=
  sumUInt32 (List.zipWith (fun a b => distance a.toNat b.toNat) source reference)

/-- Sample-by-sample average of two rows. -/
def averageRow (reference second : List (Sample s)) : Outcome (List Nat) :=
  (reference.zip second).mapM fun (r, p) => avg2 r.toNat p.toNat

/-- Cost of one row against the average of two others. -/
def rowCostAverage (source reference second : List (Sample s)) : Outcome Nat := do
  let average ← averageRow reference second
  sumUInt32 (List.zipWith (fun a b => distance a.toNat b) source average)

/-! ## §2. Blocks. -/

/-- Cost of row `y` of two planes. -/
def rowCostAt (width : Nat) (source reference : Plane s) (y : Nat) : Outcome Nat := do
  rowCost (← source.row y width) (← reference.row y width)

/-- Cost of a block. -/
def sad (width height : Nat) (source reference : Plane s) : Outcome Nat := do
  source.assertFits width height
  reference.assertFits width height
  let costs ← (List.range height).mapM (rowCostAt width source reference)
  sumUInt32 costs

/-- Adds row after row to `total` and stops as soon as the total is above `bound`. -/
def addRowsUntil (cost : Nat → Outcome Nat) (bound : Nat) : List Nat → Nat → Outcome Nat
  | [], total => pure total
  | y :: rest, total => do
      let total ← asUInt32 (total + (← cost y))
      if bound < total then pure total else addRowsUntil cost bound rest total

/-- Cost of a block, or of its first rows if those alone cost more than `bound`. -/
def sadBounded (width height : Nat) (source reference : Plane s) (bound : Nat) : Outcome Nat := do
  source.assertFits width height
  reference.assertFits width height
  addRowsUntil (rowCostAt width source reference) bound (List.range height) 0

/-- Whether all planes have one stride. -/
def commonStride {n : Nat} (planes : Vector (Plane s) n) : Bool :=
  planes.all fun p => planes.all fun q => p.stride == q.stride

/-- Costs of a block against four references, which must have one stride. -/
def sadX4 (width height : Nat) (source : Plane s) (references : Vector (Plane s) 4) :
    Outcome (Vector Nat 4) := do
  Outcome.require (commonStride references) .assertion
  references.mapM (sad width height source)

/-- Cost of a block against the average of a reference and a packed second predictor. -/
def sadAvg (width height : Nat) (source reference : Plane s) (second : Array (Sample s)) :
    Outcome Nat := do
  source.assertFits width height
  reference.assertFits width height
  Outcome.require (width * height ≤ second.size) .assertion
  let costs ← (List.range height).mapM fun y => do
    rowCostAverage (← source.row y width) (← reference.row y width)
      (← slice second (y * width) width)
  sumUInt32 costs

end PixelKernels.Sad.Portable
