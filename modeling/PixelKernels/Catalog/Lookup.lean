/-
  PixelKernels.Catalog.Lookup
  ───────────────────────────
  **FINDING CATALOG ENTRIES, WITH A REASON WHEN THERE IS NONE.**
-/
import PixelKernels.Machine

namespace PixelKernels

/-- The depth with this many bits. -/
def Depth.ofBits (bits : Nat) : Except Error Depth :=
  match Depth.all.find? (·.bits == bits) with
  | some depth => .ok depth
  | none => .error (.unsupportedBitDepth bits)

/-- The block with these dimensions. -/
def BlockSize.ofDimensions (width height : Nat) : Except Error BlockSize :=
  match BlockSize.ofDimensions? width height with
  | some block => .ok block
  | none => .error (.unsupportedBlockSize width height)

/-- Refuses a block that is not one of the kind's sizes. -/
def KernelKind.check (kind : KernelKind) (block : BlockSize) : Except Error Unit :=
  if kind.supports block then .ok () else .error (.unsupportedGeometry kind block)

/-- What a kernel reads of a border: samples above, samples to the left, and the corner or not. -/
structure BorderReads where
  above : Nat
  left : Nat
  topLeft : Bool
  deriving Repr, DecidableEq

/-- What the kernel reads at side `n`, for a side of any 64-bit size. -/
def IntraKernel.reads (kernel : IntraKernel) (n : Nat) : Outcome BorderReads := do
  let above ← asUInt64 (kernel.aboveLength n)
  pure ⟨above, kernel.leftLength n, kernel.readsTopLeft⟩

/-- The catalog in its own order. -/
def BlockSize.sort (blocks : List BlockSize) : List BlockSize := blocks.mergeSort before

/-- Shallow depths first. -/
def Depth.sort (depths : List Depth) : List Depth := depths.mergeSort before

@[simp] theorem KernelKind.check_eq_ok_iff {kind : KernelKind} {block : BlockSize} {u : Unit} :
    kind.check block = .ok u ↔ kind.supports block = true := by
  unfold KernelKind.check; split <;> simp_all

end PixelKernels
