/-
  PixelKernels.Catalog.KernelKind
  ───────────────────────────────
  **WHAT CAN BE ASKED FOR, AND AT WHICH SIZES.**

  A coder asks for an intra *mode*; the table stores intra *kernels*.  The
  two differ in DC only, which is split by the neighbours that exist.
  A *kind* is either one of the four difference kernels or one of the ten
  intra kernels, and each kind works at a fixed set of sizes:

      sad, sad_x4    every size
      sad_avg        every size but 4x4 and 4x8
      sad_bounded    4x4, 8x8, 8x16, 16x8, 16x16
      ipred_…        the squares up to 32x32

  A kind at one of its sizes is a `Slot`; the slots in catalog order (kinds,
  then sizes) are the keys of every table.
-/
import PixelKernels.Depth
import PixelKernels.Catalog.BlockSize

namespace PixelKernels

/-! ## §1. Intra modes and kernels. -/

/-- An intra prediction mode as a coder names it. -/
inductive IntraMode where
  | dc | v | h | tm | d45 | d117 | d135
  deriving Repr, DecidableEq, Inhabited

namespace IntraMode

/-- Every mode, in catalog order. -/
def all : List IntraMode := [.dc, .v, .h, .tm, .d45, .d117, .d135]

/-- The text of a mode. -/
def name : IntraMode → String
  | .dc => "dc"
  | .v => "v"
  | .h => "h"
  | .tm => "tm"
  | .d45 => "d45"
  | .d117 => "d117"
  | .d135 => "d135"

/-- The mode as the first word of a sentence. -/
def label : IntraMode → String
  | .dc => "Dc"
  | .v => "V"
  | .h => "H"
  | .tm => "Tm"
  | .d45 => "D45"
  | .d117 => "D117"
  | .d135 => "D135"

theorem mem_all (m : IntraMode) : m ∈ all := by cases m <;> decide

end IntraMode

/-- An intra kernel as a table stores it. -/
inductive IntraKernel where
  /-- Mean of the above row and the left column. -/
  | dc
  /-- Mean of the left column. -/
  | dcLeft
  /-- Mean of the above row. -/
  | dcTop
  /-- The middle of the range. -/
  | dc128
  /-- Each column repeats the above sample. -/
  | v
  /-- Each row repeats the left sample. -/
  | h
  /-- Above plus left minus corner, clipped. -/
  | tm
  /-- Down and to the left from the above row. -/
  | d45
  /-- Down and to the right, two rows per column. -/
  | d117
  /-- Down and to the right along the diagonal. -/
  | d135
  deriving Repr, DecidableEq, Inhabited

namespace IntraKernel

/-- Every intra kernel, in catalog order. -/
def all : List IntraKernel :=
  [.dc, .dcLeft, .dcTop, .dc128, .v, .h, .tm, .d45, .d117, .d135]

/-- The text of an intra kernel. -/
def name : IntraKernel → String
  | .dc => "dc"
  | .dcLeft => "dc_left"
  | .dcTop => "dc_top"
  | .dc128 => "dc_128"
  | .v => "v"
  | .h => "h"
  | .tm => "tm"
  | .d45 => "d45"
  | .d117 => "d117"
  | .d135 => "d135"

/-- Number of above samples read for a block of side `n`. -/
def aboveLength (n : Nat) : IntraKernel → Nat
  | .d45 => 2 * n
  | .dc | .dcTop | .v | .tm | .d117 | .d135 => n
  | .dcLeft | .dc128 | .h => 0

/-- Number of left samples read for a block of side `n`. -/
def leftLength (n : Nat) : IntraKernel → Nat
  | .dc | .dcLeft | .h | .tm | .d117 | .d135 => n
  | .dcTop | .dc128 | .v | .d45 => 0

/-- Whether the kernel reads the corner sample. -/
def readsTopLeft : IntraKernel → Bool
  | .tm | .d117 | .d135 => true
  | _ => false

theorem mem_all (k : IntraKernel) : k ∈ all := by cases k <;> decide

end IntraKernel

/-- The kernel of a mode when both neighbours exist. -/
def IntraMode.kernel : IntraMode → IntraKernel
  | .dc => .dc
  | .v => .v
  | .h => .h
  | .tm => .tm
  | .d45 => .d45
  | .d117 => .d117
  | .d135 => .d135

/-! ## §2. Kinds, their signatures and their sizes. -/

/-- The shape of a kernel's arguments and result. -/
inductive Signature where
  /-- Two planes to one cost. -/
  | sad
  /-- Two planes and a bound to one cost. -/
  | sadBounded
  /-- A source and four references to four costs. -/
  | sadX4
  /-- Two planes and a second predictor to one cost. -/
  | sadAvg
  /-- A border to a block of samples. -/
  | intra
  deriving Repr, DecidableEq, Inhabited

/-- The text of a signature. -/
def Signature.name : Signature → String
  | .sad => "sad"
  | .sadBounded => "sad_bounded"
  | .sadX4 => "sad_x4"
  | .sadAvg => "sad_avg"
  | .intra => "intra"

/-- What a kernel computes. -/
inductive KernelKind where
  /-- Sum of absolute differences. -/
  | sad
  /-- The same, which may stop early past a bound. -/
  | sadBounded
  /-- The same, against four references at once. -/
  | sadX4
  /-- The same, against the average of a reference and a second predictor. -/
  | sadAvg
  /-- Intra prediction. -/
  | intra (kernel : IntraKernel)
  deriving Repr, DecidableEq, Inhabited

namespace KernelKind

/-- Every kind, in catalog order. -/
def all : List KernelKind :=
  [.sad, .sadBounded, .sadX4, .sadAvg] ++ IntraKernel.all.map .intra

/-- The text of a kind. -/
def name : KernelKind → String
  | .sad => "sad"
  | .sadBounded => "sad_bounded"
  | .sadX4 => "sad_x4"
  | .sadAvg => "sad_avg"
  | .intra k => "ipred_" ++ k.name

/-- The signature that kernels of this kind have. -/
def signature : KernelKind → Signature
  | .sad => .sad
  | .sadBounded => .sadBounded
  | .sadX4 => .sadX4
  | .sadAvg => .sadAvg
  | .intra _ => .intra

/-- Whether the block is in the kind's set of sizes. -/
def supports : KernelKind → BlockSize → Bool
  | .sad, _ => true
  | .sadX4, _ => true
  | .sadAvg, b => b != .b4x4 && b != .b4x8
  | .sadBounded, b => [BlockSize.b16x16, .b8x16, .b16x8, .b8x8, .b4x4].contains b
  | .intra _, b => [BlockSize.b4x4, .b8x8, .b16x16, .b32x32].contains b

/-- The kind's sizes, in catalog order. -/
def sizes (k : KernelKind) : List BlockSize := BlockSize.all.filter k.supports

theorem mem_all (k : KernelKind) : k ∈ all := by
  rcases k with _ | _ | _ | _ | k <;> simp [all, IntraKernel.mem_all]

@[simp] theorem mem_sizes {k : KernelKind} {b : BlockSize} :
    b ∈ k.sizes ↔ k.supports b = true := by
  simp [sizes, BlockSize.mem_all]

/-- Intra prediction works on squares of side 4 to 32. -/
theorem intra_supports {k : IntraKernel} {b : BlockSize}
    (h : (KernelKind.intra k).supports b = true) :
    b.height = b.width ∧ 4 ≤ b.width ∧ b.width ≤ 32 := by
  cases b <;> simp_all [KernelKind.supports, BlockSize.width, BlockSize.height]

end KernelKind

/-! ## §3. Slots and keys. -/

/-- A kind at a size. -/
structure Slot where
  kind : KernelKind
  block : BlockSize
  deriving Repr, DecidableEq, Inhabited

namespace Slot

/-- Whether the size is one of the kind's. -/
def supported (slot : Slot) : Bool := slot.kind.supports slot.block

/-- Every supported slot: kinds in catalog order, and the sizes of each. -/
def catalog : List Slot :=
  KernelKind.all.flatMap fun kind => kind.sizes.map fun block => ⟨kind, block⟩

@[simp] theorem mem_catalog {slot : Slot} : slot ∈ catalog ↔ slot.supported = true := by
  obtain ⟨kind, block⟩ := slot
  simp [catalog, supported, KernelKind.mem_all]

end Slot

/-- A slot at a depth: what one table entry answers for. -/
structure KernelKey extends Slot where
  depth : Depth
  deriving Repr, DecidableEq, Inhabited

/-- The text of a key, as in `sad_16x8_10bpc`. -/
def KernelKey.name (key : KernelKey) : String :=
  key.kind.name ++ "_" ++ key.block.name ++ "_" ++ key.depth.name

/-! ## §4. Sizes that matter elsewhere. -/

/-- The largest side of an intra block. -/
def maxIntraSide : Nat := 32

/-- What this build of the library contains, as a comma-separated list. -/
def features : String :=
  ", ".intercalate ["bitdepth_8", "bitdepth_16", "safety:forbid-unsafe"]

end PixelKernels
