/-
  PixelKernels.Dispatch.Registry
  ──────────────────────────────
  **EVERY IMPLEMENTATION OF EVERY SLOT.**

  A registry belongs to one depth.  Each slot has a list of candidates, the
  most specialised first; candidates of equal rank stay in the order in
  which they were registered.  A registration is refused, and changes
  nothing, if the kernel has not the signature of the kind, if the size is
  not one of the kind's, or if the depth is another one; of several reasons
  the first in this order is given.
-/
import PixelKernels.Catalog.Lookup
import PixelKernels.Dispatch.Implementation

namespace PixelKernels

/-- A function changed at one place. -/
def assign {κ α : Type} [DecidableEq κ] (f : κ → α) (key : κ) (value : α) : κ → α :=
  fun k => if k = key then value else f k

@[simp] theorem assign_self {κ α : Type} [DecidableEq κ] (f : κ → α) (key : κ) (value : α) :
    assign f key value key = value := by simp [assign]

theorem assign_of_ne {κ α : Type} [DecidableEq κ] {f : κ → α} {key k : κ} {value : α}
    (h : k ≠ key) : assign f key value k = f k := by simp [assign, h]

/-! ## §1. Ranked candidates. -/

/-- Puts a candidate in front of the first one that ranks below it. -/
def insertRanked {s : Storage} (candidate : Implementation s) :
    List (Implementation s) → List (Implementation s)
  | [] => [candidate]
  | c :: rest =>
      if c.preference < candidate.preference then candidate :: c :: rest
      else c :: insertRanked candidate rest

theorem insertRanked_perm {s : Storage} (candidate : Implementation s)
    (candidates : List (Implementation s)) :
    (insertRanked candidate candidates).Perm (candidate :: candidates) := by
  induction candidates with
  | nil => simp [insertRanked]
  | cons c rest ih =>
    simp only [insertRanked]
    split
    · exact List.Perm.refl _
    · exact (ih.cons c).trans (List.Perm.swap candidate c rest)

@[simp] theorem mem_insertRanked {s : Storage} {c candidate : Implementation s}
    {candidates : List (Implementation s)} :
    c ∈ insertRanked candidate candidates ↔ c = candidate ∨ c ∈ candidates := by
  rw [(insertRanked_perm candidate candidates).mem_iff, List.mem_cons]

/-! ## §2. Registries. -/

/-- The candidates of every slot at one depth. -/
structure Registry (s : Storage) where
  depth : Depth
  /-- The cell stores the depth. -/
  stored : depth.storage = s
  /-- The candidates of each slot, the highest rank first. -/
  candidates : Slot → List (Implementation s)

/-- A request to add an implementation to a slot. -/
structure Registration (s : Storage) where
  slot : Slot
  depth : Depth
  implementation : Implementation s

namespace Registry

/-- A registry without any implementation. -/
def empty (s : Storage) (depth : Depth) : Except Error (Registry s) :=
  if stored : depth.storage = s then .ok ⟨depth, stored, fun _ => []⟩
  else .error (.storageMismatch depth)

variable {s : Storage}

/-- Why a registration is refused, if it is. -/
def examine (registry : Registry s) (call : Registration s) : Except Error Unit := do
  -- the first of the three that is wrong is the one that is named
  let kind := call.slot.kind
  let signature := call.implementation.kernel.signature
  if signature ≠ kind.signature then throw (.kindMismatch kind signature.name)
  kind.check call.slot.block
  if call.depth ≠ registry.depth then throw (.storageMismatch call.depth)

/-- The registry with one more candidate in a slot. -/
def insert (registry : Registry s) (slot : Slot) (implementation : Implementation s) :
    Registry s :=
  { registry with
    candidates := assign registry.candidates slot
      (insertRanked implementation (registry.candidates slot)) }

/-- Adds an implementation to a slot. -/
def register (registry : Registry s) (call : Registration s) : Except Error (Registry s) := do
  registry.examine call
  pure (registry.insert call.slot call.implementation)

/-- Adds implementations one after another, up to the first refusal. -/
def registerAll (registry : Registry s) (calls : List (Registration s)) :
    Except Error (Registry s) :=
  calls.foldlM register registry

/-- The registry after any calls, each refused one leaving it as it was. -/
def afterCalls (registry : Registry s) (calls : List (Registration s)) : Registry s :=
  calls.foldl (fun r call => (r.register call).toOption.getD r) registry

/-- The candidate that a slot uses on a processor with these capabilities. -/
def select (registry : Registry s) (flags : CpuFlags) (slot : Slot) :
    Option (Implementation s) :=
  (registry.candidates slot).find? (·.runsOn flags)

end Registry

end PixelKernels
