/-
  PixelKernels.Dispatch.Table
  ───────────────────────────
  **ONE CHOICE PER SLOT, MADE ONCE.**

  A table is a registry frozen for one set of capabilities.  It answers the
  same question in three ways: the function of a size for each signature,
  the implementation selected for a slot, and all candidates that the slot
  had.  `Registry.build` walks the slots in catalog order and installs the
  first candidate of each that the capabilities allow; a slot without one
  ends the walk.
-/
import PixelKernels.Dispatch.Registry

namespace PixelKernels

/-- The frozen selection for one depth. -/
structure Table (s : Storage) where
  depth : Depth
  /-- The cell stores the depth. -/
  stored : depth.storage = s
  /-- The capabilities that the selection was made for. -/
  flags : CpuFlags
  sad : BlockSize → Option (SadFn s)
  sadBounded : BlockSize → Option (SadBoundedFn s)
  sadX4 : BlockSize → Option (SadX4Fn s)
  sadAvg : BlockSize → Option (SadAvgFn s)
  intra : IntraKernel → BlockSize → Option (IntraFn s)
  /-- The implementation that a slot uses. -/
  selected : Slot → Option (Implementation s)
  /-- Every implementation that was registered for a slot. -/
  candidates : Slot → List (Implementation s)

namespace Table

variable {s : Storage}

/-! ## §1. Building. -/

/-- The table of a registry before anything is selected. -/
def unselected (registry : Registry s) (flags : CpuFlags) : Table s where
  depth := registry.depth
  stored := registry.stored
  flags := flags
  sad := fun _ => none
  sadBounded := fun _ => none
  sadX4 := fun _ => none
  sadAvg := fun _ => none
  intra := fun _ _ => none
  selected := fun _ => none
  candidates := registry.candidates

/-- Makes a candidate the choice of its slot; its signature must be the kind's. -/
def install (table : Table s) (slot : Slot) (chosen : Implementation s) : Outcome (Table s) := do
  let block := slot.block
  let table ← match slot.kind, chosen.kernel with
    | .sad, .sad run => pure { table with sad := assign table.sad block (some run) }
    | .sadBounded, .sadBounded run =>
        pure { table with sadBounded := assign table.sadBounded block (some run) }
    | .sadX4, .sadX4 run => pure { table with sadX4 := assign table.sadX4 block (some run) }
    | .sadAvg, .sadAvg run => pure { table with sadAvg := assign table.sadAvg block (some run) }
    | .intra kernel, .intra run =>
        pure { table with
          intra := assign table.intra kernel (assign (table.intra kernel) block (some run)) }
    -- a registry never holds a candidate of another signature
    | _, _ => throw .assertion
  pure { table with selected := assign table.selected slot (some chosen) }

/-- Selects and installs the candidate of one slot. -/
def selectFrom (registry : Registry s) (flags : CpuFlags) (table : Table s) (slot : Slot) :
    Outcome (Table s) :=
  match registry.select flags slot with
  | some chosen => table.install slot chosen
  | none => .error (.error (.missingImplementation slot.kind slot.block registry.depth))

end Table

/-- Freezes a registry for a set of capabilities. -/
def Registry.build {s : Storage} (registry : Registry s) (flags : CpuFlags) :
    Outcome (Table s) :=
  Slot.catalog.foldlM (Table.selectFrom registry flags) (Table.unselected registry flags)

namespace Table

variable {s : Storage}

/-! ## §2. Looking up. -/

/-- An entry that has to be there. -/
def entry {α : Type} (kind : KernelKind) (block : BlockSize) : Option α → Outcome α
  | some run => .ok run
  | none => .error (.violation (.noKernel kind block))

/-- The difference kernel of a size. -/
def sadAt (table : Table s) (block : BlockSize) : Outcome (SadFn s) :=
  entry .sad block (table.sad block)

/-- The bounded difference kernel of a size. -/
def sadBoundedAt (table : Table s) (block : BlockSize) : Outcome (SadBoundedFn s) :=
  entry .sadBounded block (table.sadBounded block)

/-- The kernel for four references of a size. -/
def sadX4At (table : Table s) (block : BlockSize) : Outcome (SadX4Fn s) :=
  entry .sadX4 block (table.sadX4 block)

/-- The kernel for averages of a size. -/
def sadAvgAt (table : Table s) (block : BlockSize) : Outcome (SadAvgFn s) :=
  entry .sadAvg block (table.sadAvg block)

/-- The intra kernel of a size. -/
def intraAt (table : Table s) (kernel : IntraKernel) (block : BlockSize) : Outcome (IntraFn s) :=
  entry (.intra kernel) block (table.intra kernel block)

/-- The largest valid sample. -/
def max (table : Table s) : Nat := table.depth.max

/-! ## §3. Listing. -/

/-- Candidates of a slot that a processor can run, whatever the table was built for. -/
def runnable (table : Table s) (slot : Slot) (available : CpuFlags) : List (Implementation s) :=
  (table.candidates slot).filter (·.runsOn available)

/-- Every key with a choice, in catalog order, and the name of the choice. -/
def describe (table : Table s) : List (KernelKey × String) :=
  Slot.catalog.filterMap fun slot =>
    (table.selected slot).map fun chosen => (⟨slot, table.depth⟩, chosen.name)

end Table

end PixelKernels
