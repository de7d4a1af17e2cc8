/-
  PixelKernels.Sad.Wide
  ─────────────────────
  **SUMS OF ABSOLUTE DIFFERENCES IN VECTOR REGISTERS.**

  These kernels need 256-bit registers and blocks at least sixteen samples
  wide.  Bytes go through `sumDistances`, whose 64-bit lanes never fill up.
  Words take the saturating difference both ways, so that one of the two is
  the distance and the other zero, and are summed in pairs as *signed*
  16-bit numbers: that is exact while no distance reaches 32768, which the
  deepest samples are far from.

  The bounded kernel returns the full cost: that also keeps the promise of
  being exact up to the bound and above it beyond.  The kernel for four
  references does not ask them to share a stride.
-/
import PixelKernels.Lanes
import PixelKernels.Plane

namespace PixelKernels.Sad.Wide

/-! ## §1. Accumulators. -/

/-- The register in which the rows of a block are added up. -/
abbrev Accumulator : Storage → Type
  | .byte => Register 64 4
  | .word => Register 32 8

namespace Accumulator

/-- Nothing added yet. -/
def empty : (s : Storage) → Accumulator s
  | .byte => Register.zero 64 4
  | .word => Register.zero 32 8

/-- The cost added up so far. -/
def total : {s : Storage} → Accumulator s → Nat
  | .byte, acc => (Register.sum64 acc).toNat
  | .word, acc => (Register.sum32 acc).toNat

end Accumulator

/-! ## §2. Rows. -/

/-- Positions at which registers of `step` lanes start in a row. -/
def starts (width step : Nat) : List Nat := (List.range (width / step)).map (step * ·)

/-- Distances of two registers of words. -/
def wordDistances (a b : Register 16 16) : Register 16 16 :=
  (a.subSaturating b).bitOr (b.subSaturating a)

/-- Adds the distances of two registers of words. -/
def addWords (acc : Register 32 8) (a b : Register 16 16) : Register 32 8 :=
  acc.add (Register.addPairs (n := 8) (wordDistances a b) (Register.splat 16 1))

/-- Adds the distances of two full registers of bytes. -/
def addBytes (acc : Register 64 4) (a b : Register 8 32) : Register 64 4 :=
  acc.add (Register.sumDistances (n := 4) a b)

/-- Adds the distances of two half registers of bytes. -/
def addHalfBytes (acc : Register 64 4) (a b : Register 8 16) : Register 64 4 :=
  acc.add (Register.zeroExtend (Register.sumDistances (n := 2) a b))

/-- Adds the cost of one row against another. -/
def addRow (width : Nat) : {s : Storage} → Accumulator s →
    (source reference : List (Sample s)) → Outcome (Accumulator s)
  | .byte, acc, source, reference =>
      if width = 16 then do
        pure (addHalfBytes acc (← Register.load 16 source 0) (← Register.load 16 reference 0))
      else
        (starts width 32).foldlM (fun acc x => do
          pure (addBytes acc (← Register.load 32 source x) (← Register.load 32 reference x))) acc
  | .word, acc, source, reference =>
      (starts width 16).foldlM (fun acc x => do
        pure (addWords acc (← Register.load 16 source x) (← Register.load 16 reference x))) acc

/-- Adds the cost of one row against the average of two others. -/
def addRowAverage (width : Nat) : {s : Storage} → Accumulator s →
    (source reference second : List (Sample s)) → Outcome (Accumulator s)
  | .byte, acc, source, reference, second =>
      if width = 16 then do
        let average := (← Register.load 16 reference 0).average (← Register.load 16 second 0)
        pure (addHalfBytes acc (← Register.load 16 source 0) average)
      else
        (starts width 32).foldlM (fun acc x => do
          let average := (← Register.load 32 reference x).average (← Register.load 32 second x)
          pure (addBytes acc (← Register.load 32 source x) average)) acc
  | .word, acc, source, reference, second =>
      (starts width 16).foldlM (fun acc x => do
        let average := (← Register.load 16 reference x).average (← Register.load 16 second x)
        pure (addWords acc (← Register.load 16 source x) average)) acc

/-! ## §3. Blocks. -/

variable {s : Storage}

/-- Adds up the rows of a block. -/
def accumulate (width height : Nat) (source reference : Plane s) : Outcome (Accumulator s) :=
  (List.range height).foldlM (fun acc y => do
    addRow width acc (← source.row y width) (← reference.row y width)) (Accumulator.empty s)

/-- Cost of a block. -/
def sad (width height : Nat) (source reference : Plane s) : Outcome Nat := do
  source.assertFits width height
  reference.assertFits width height
  pure (← accumulate width height source reference).total

/-- Cost of a block, whatever the bound. -/
def sadBounded (width height : Nat) (source reference : Plane s) (_bound : Nat) : Outcome Nat :=
  sad width height source reference

/-- Costs of a block against four references, in one pass over the source. -/
def sadX4 (width height : Nat) (source : Plane s) (references : Vector (Plane s) 4) :
    Outcome (Vector Nat 4) := do
  source.assertFits width height
  references.forM fun reference => reference.assertFits width height
  let accs ← (List.range height).foldlM (fun (accs : Vector (Accumulator s) 4) y => do
    -- one row of the source serves all four
    let row ← source.row y width
    (accs.zip references).mapM fun (acc, reference) => do
      addRow width acc row (← reference.row y width)) (Vector.replicate 4 (Accumulator.empty s))
  pure (accs.map Accumulator.total)

/-- Cost of a block against the average of a reference and a packed second predictor. -/
def sadAvg (width height : Nat) (source reference : Plane s) (second : Array (Sample s)) :
    Outcome Nat := do
  source.assertFits width height
  reference.assertFits width height
  Outcome.require (width * height ≤ second.size) .assertion
  let acc ← (List.range height).foldlM (fun acc y => do
    addRowAverage width acc (← source.row y width) (← reference.row y width)
      (← slice second (y * width) width)) (Accumulator.empty s)
  pure acc.total

end PixelKernels.Sad.Wide
