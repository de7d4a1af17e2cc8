/-
  PixelKernels.Dispatch.Implementation
  ────────────────────────────────────
  **KERNELS AS VALUES.**

  A kernel is a function together with its signature.  An implementation is
  a kernel with a name and the capabilities that it needs; an implementation
  that needs nothing runs everywhere.
-/
import PixelKernels.Cpu.Flags
import PixelKernels.Intra.Edge
import PixelKernels.Painting

namespace PixelKernels

/-! ## §1. The five signatures. -/

/-- Cost of a source against a reference. -/
abbrev SadFn (s : Storage) := Plane s → Plane s → Outcome Nat

/-- Cost up to a bound: exact if it is at most the bound, above the bound otherwise. -/
abbrev SadBoundedFn (s : Storage) := Plane s → Plane s → Nat → Outcome Nat

/-- Costs of a source against four references. -/
abbrev SadX4Fn (s : Storage) := Plane s → Vector (Plane s) 4 → Outcome (Vector Nat 4)

/-- Cost of a source against the average of a reference and a packed second predictor. -/
abbrev SadAvgFn (s : Storage) := Plane s → Plane s → Array (Sample s) → Outcome Nat

/-- Prediction of a destination from a border, up to a maximum. -/
abbrev IntraFn (s : Storage) := Plane s → IntraEdge s → Nat → Painting s

/-- A kernel with its signature. -/
inductive KernelFn (s : Storage) where
  | sad (run : SadFn s)
  | sadBounded (run : SadBoundedFn s)
  | sadX4 (run : SadX4Fn s)
  | sadAvg (run : SadAvgFn s)
  | intra (run : IntraFn s)

/-- The signature of a kernel. -/
def KernelFn.signature {s : Storage} : KernelFn s → Signature
  | .sad _ => .sad
  | .sadBounded _ => .sadBounded
  | .sadX4 _ => .sadX4
  | .sadAvg _ => .sadAvg
  | .intra _ => .intra

/-! ## §2. Implementations. -/

/-- A kernel that a slot can use. -/
structure Implementation (s : Storage) where
  name : String
  /-- What the processor must have. -/
  requires : CpuFlags
  kernel : KernelFn s

namespace Implementation

variable {s : Storage}

/-- Rank among the implementations of a slot: the more specialised, the higher. -/
def preference (implementation : Implementation s) : Nat := implementation.requires.preference

/-- Whether a processor with these capabilities can run it. -/
def runsOn (implementation : Implementation s) (flags : CpuFlags) : Bool :=
  flags.contains implementation.requires

end Implementation

end PixelKernels
