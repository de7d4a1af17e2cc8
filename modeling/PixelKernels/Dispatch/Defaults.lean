/-
  PixelKernels.Dispatch.Defaults
  ──────────────────────────────
  **THE IMPLEMENTATIONS THAT COME WITH THE LIBRARY.**

  Every slot has a portable implementation, which needs nothing.  Slots of
  blocks at least sixteen wide also have one in vector registers, which
  needs 256-bit integers; among intra kernels these are the flat and the
  straight ones and tm.

  A kernel in vector registers asks for a token first.  Without one it hands
  over to the portable kernel under its own name, so the name that is selected
  does not yet say which of the two runs.
-/
import PixelKernels.Dispatch.Table
import PixelKernels.Intra.Wide
import PixelKernels.Sad.Portable
import PixelKernels.Sad.Wide

namespace PixelKernels

variable {s : Storage}

/-- Name of the implementations that run everywhere. -/
def portableName : String := "rust"

/-- Name of the implementations in vector registers. -/
def wideName : String := "avx2"

/-- The portable kernel of a slot. -/
def portableKernel (slot : Slot) : KernelFn s :=
  let width := slot.block.width
  let height := slot.block.height
  match slot.kind with
  | .sad => .sad (Sad.Portable.sad width height)
  | .sadBounded => .sadBounded (Sad.Portable.sadBounded width height)
  | .sadX4 => .sadX4 (Sad.Portable.sadX4 width height)
  | .sadAvg => .sadAvg (Sad.Portable.sadAvg width height)
  | .intra kernel => .intra (Intra.Portable.predict kernel width)

/-- The portable kernel for four references, entered through the one in vector registers: that all
planes hold the block is asserted before the strides are looked at. -/
def sadX4WithoutToken (width height : Nat) (source : Plane s) (references : Vector (Plane s) 4) :
    Outcome (Vector Nat 4) := do
  source.assertFits width height
  references.forM fun reference => reference.assertFits width height
  Sad.Portable.sadX4 width height source references

/-- The kernel of a slot in vector registers, if there is one, or what it hands over to if it is given
no token.  Both make the same assertions first, so the portable kernel stands there as it is, except
for the one for four references. -/
def wideKernel? (summons : Bool) (slot : Slot) : Option (KernelFn s) :=
  let width := slot.block.width
  let height := slot.block.height
  if width < 16 then none
  else match slot.kind with
    | .sad => some (.sad
        (if summons then Sad.Wide.sad width height else Sad.Portable.sad width height))
    | .sadBounded => some (.sadBounded
        (if summons then Sad.Wide.sadBounded width height else Sad.Portable.sadBounded width height))
    | .sadX4 => some (.sadX4
        (if summons then Sad.Wide.sadX4 width height else sadX4WithoutToken width height))
    | .sadAvg => some (.sadAvg
        (if summons then Sad.Wide.sadAvg width height else Sad.Portable.sadAvg width height))
    | .intra kernel => (Intra.Wide.predict? kernel width).map fun wide =>
        .intra (if summons then wide else Intra.Portable.predict kernel width)

/-- The portable implementation of a slot. -/
def portableImplementation (slot : Slot) : Implementation s :=
  ⟨portableName, .none, portableKernel slot⟩

/-- The implementation of a slot in vector registers, if there is one. -/
def wideImplementation? (summons : Bool) (slot : Slot) : Option (Implementation s) :=
  (wideKernel? summons slot).map fun kernel => ⟨wideName, .avx2, kernel⟩

namespace Registry

/-- The registrations that the library makes: first the portable ones, then the others. -/
def defaultCalls (summons : Bool) (s : Storage) (depth : Depth) : List (Registration s) :=
  (Slot.catalog.map fun slot => ⟨slot, depth, portableImplementation slot⟩)
    ++ Slot.catalog.filterMap fun slot =>
        (wideImplementation? summons slot).map fun implementation => ⟨slot, depth, implementation⟩

/-- A registry with every implementation that comes with the library. -/
def withDefaults (summons : Bool) (s : Storage) (depth : Depth) : Except Error (Registry s) := do
  (← empty s depth).registerAll (defaultCalls summons s depth)

end Registry

end PixelKernels
