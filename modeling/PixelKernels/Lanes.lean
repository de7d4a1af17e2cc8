/-
  PixelKernels.Lanes
  ──────────────────
  **VECTOR REGISTERS AND THE INSTRUCTIONS USED ON THEM.**

  A register is a row of lanes of one width: 256 bits are 32 lanes of 8, 16
  of 16, 8 of 32 or 4 of 64.  Every instruction is given by what it puts in
  each lane, as the manuals of the instruction set define it; nothing here
  knows about samples or blocks.

      instruction        here
      psubus             subSaturating     unsigned, stops at zero
      por                bitOr
      pavg               average           rounds half up, in one bit more
      psadbw             sumDistances      eight bytes to one 64-bit lane
      pmaddwd            addPairs          signed 16-bit products, summed in pairs
      padd               add               wraps
      pmovzx             widen             zero-extends
      packus             packUnsigned      signed to unsigned, saturating, per half
      vpermq             selectQuarters
      pmins, pmaxs       minSigned, maxSigned
-/
import PixelKernels.Machine

namespace PixelKernels

/-- A vector register of `n` lanes of `k` bits. -/
abbrev Register (k n : Nat) := Vector (BitVec k) n

namespace Register

variable {k n : Nat}

/-! ## §1. Loading and filling. -/

/-- All lanes zero. -/
def zero (k n : Nat) : Register k n := Vector.replicate n 0

/-- All lanes equal. -/
def splat (n : Nat) (v : BitVec k) : Register k n := Vector.replicate n v

/-- Loads `n` lanes from position `start` of a row; the row must reach that far. -/
def load (n : Nat) (row : List (BitVec k)) (start : Nat) : Outcome (Register k n) :=
  let lanes := (row.drop start).take n
  if h : lanes.length = n then .ok ⟨lanes.toArray, by simpa using h⟩ else .error .index

/-! ## §2. Lane by lane. -/

/-- Wrapping sum. -/
def add (a b : Register k n) : Register k n := a.zipWith (· + ·) b

/-- Unsigned difference, zero where it would be negative. -/
def subSaturating (a b : Register k n) : Register k n :=
  a.zipWith (fun x y => if y.toNat ≤ x.toNat then x - y else 0) b

/-- Bitwise or. -/
def bitOr (a b : Register k n) : Register k n := a.zipWith (· ||| ·) b

/-- Unsigned average, a half rounded up. -/
def average (a b : Register k n) : Register k n :=
  a.zipWith (fun x y => BitVec.ofNat k ((x.toNat + y.toNat + 1) / 2)) b

/-- The larger lane in signed order. -/
def maxSigned (a b : Register k n) : Register k n :=
  a.zipWith (fun x y => if x.toInt < y.toInt then y else x) b

/-- The smaller lane in signed order. -/
def minSigned (a b : Register k n) : Register k n :=
  a.zipWith (fun x y => if y.toInt < x.toInt then y else x) b

/-- Every lane zero-extended to `m` bits. -/
def widen (m : Nat) (a : Register k n) : Register m n := a.map (BitVec.setWidth m)

/-! ## §3. Across lanes. -/

/-- Sums of the distances of eight byte lanes each, in 64-bit lanes. -/
def sumDistances (a b : Register 8 (8 * n)) : Register 64 n :=
  Vector.ofFn fun i : Fin n =>
    BitVec.ofNat 64 <| (List.finRange 8).foldl (fun total (j : Fin 8) =>
      have inside : 8 * i.val + j.val < 8 * n := by omega
      let x := a[8 * i.val + j.val].toNat
      let y := b[8 * i.val + j.val].toNat
      total + ((x - y) + (y - x))) 0

/-- Signed products of 16-bit lanes, the two of a pair summed in a 32-bit lane. -/
def addPairs (a b : Register 16 (2 * n)) : Register 32 n :=
  Vector.ofFn fun i : Fin n =>
    have low : 2 * i.val < 2 * n := by omega
    have high : 2 * i.val + 1 < 2 * n := by omega
    a[2 * i.val].signExtend 32 * b[2 * i.val].signExtend 32
      + a[2 * i.val + 1].signExtend 32 * b[2 * i.val + 1].signExtend 32

/-- The lower half of the lanes. -/
def lowHalf (a : Register k (n + n)) : Register k n :=
  Vector.ofFn fun i : Fin n => a[i.val]

/-- The upper half of the lanes. -/
def highHalf (a : Register k (n + n)) : Register k n :=
  Vector.ofFn fun i : Fin n => a[n + i.val]

/-- A half-sized register in the lower lanes of a full one, the upper lanes zero. -/
def zeroExtend (a : Register k n) : Register k (n + n) := (a ++ zero k n)

/-- Lanes picked by position. -/
def shuffle {m : Nat} (pick : Fin m → Fin n) (a : Register k n) : Register k m :=
  Vector.ofFn fun i => a[(pick i).val]

/-- A signed 16-bit lane moved to the nearest unsigned byte. -/
def saturateByte (x : BitVec 16) : BitVec 8 :=
  if x.toInt < 0 then 0 else if 255 < x.toInt then 255 else x.setWidth 8

/-- Narrows two registers of sixteen signed lanes; the halves of the operands alternate. -/
def packUnsigned (a b : Register 16 16) : Register 8 32 :=
  Vector.ofFn fun i : Fin 32 =>
    let lane : Fin 16 := ⟨8 * (i.val / 16) + i.val % 8, by omega⟩
    saturateByte (if i.val / 8 % 2 = 0 then a[lane.val] else b[lane.val])

/-- Rearranges the four quarters of a register of bytes. -/
def selectQuarters (pick : Fin 4 → Fin 4) (a : Register 8 32) : Register 8 32 :=
  Vector.ofFn fun i : Fin 32 =>
    let quarter := pick ⟨i.val / 8, by omega⟩
    have inside : 8 * quarter.val + i.val % 8 < 32 := by omega
    a[8 * quarter.val + i.val % 8]

/-! ## §4. Sums over a register. -/

/-- The lowest lane. -/
def lowest (a : Register k (n + 1)) : BitVec k := a[0]

/-- The upper of two lanes, in both places. -/
def upperTwice (_ : Fin 2) : Fin 2 := Fin.last 1

/-- The halves of four lanes, exchanged. -/
def swapHalves (i : Fin 4) : Fin 4 := ⟨(i.val + 2) % 4, by omega⟩

/-- The neighbours among four lanes, exchanged. -/
def swapNeighbours (i : Fin 4) : Fin 4 := ⟨i.val / 2 * 2 + (i.val + 1) % 2, by omega⟩

/-- Sum of four 64-bit lanes, cut to 32 bits: the halves are added, then the two lanes left. -/
def sum64 (a : Register 64 4) : BitVec 32 :=
  let s : Register 64 2 := add (lowHalf a) (highHalf a)
  let s := add s (shuffle upperTwice s)
  (lowest s).setWidth 32

/-- Sum of eight 32-bit lanes: the halves are added, then halves of halves, then neighbours. -/
def sum32 (a : Register 32 8) : BitVec 32 :=
  let s : Register 32 4 := add (lowHalf a) (highHalf a)
  let s := add s (shuffle swapHalves s)
  let s := add s (shuffle swapNeighbours s)
  lowest s

end Register

end PixelKernels
