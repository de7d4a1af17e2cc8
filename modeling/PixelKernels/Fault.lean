/-
  PixelKernels.Fault
  ──────────────────
  **EVERY WAY IN WHICH A CALL CAN END WITHOUT ITS ANSWER.**

  Three families are kept apart because they blame different parties:

      Error       the caller's data was examined and refused; the refusal is
                  a value that the caller can look at
      Violation   a kernel was asked for under conditions that its contract
                  excludes; the refusal says which
      the rest    an internal check, an integer range or a buffer bound gave
                  way (`assertion`, `overflow`, `index`); these carry no text

  Causes are data and the wording is one function per family, so a theorem
  can speak of the cause and a log can print the words.
-/
import PixelKernels.Catalog.KernelKind

namespace PixelKernels

/-! ## §1. Refusals that a caller can inspect. -/

/-- Why geometry, registration, borders or settings were refused. -/
inductive Error where
  /-- A bit depth other than 8, 10 and 12. -/
  | unsupportedBitDepth (bits : Nat)
  /-- Dimensions outside the block catalog. -/
  | unsupportedBlockSize (width height : Nat)
  /-- A catalog block that the kind does not implement. -/
  | unsupportedGeometry (kind : KernelKind) (block : BlockSize)
  /-- A function registered under a kind with another signature. -/
  | kindMismatch (kind : KernelKind) (function : String)
  /-- A depth whose samples are not stored in the cell at hand. -/
  | storageMismatch (depth : Depth)
  /-- A buffer that ends before, or a rectangle that starts before, what is needed. -/
  | bufferTooSmall (needed length : Nat)
  /-- A slot without any implementation that may run. -/
  | missingImplementation (kind : KernelKind) (block : BlockSize) (depth : Depth)
  /-- A level name that is not in the grammar, as it was given. -/
  | invalidCpuLevel (text : String)
  deriving Repr, DecidableEq

/-- The wording of a refusal. -/
def Error.message : Error → String
  | .unsupportedBitDepth bits => s!"unsupported bit depth: {bits}"
  | .unsupportedBlockSize width height => s!"unsupported block size: {width}x{height}"
  | .unsupportedGeometry kind block => kind.name ++ " does not support " ++ block.name
  | .kindMismatch kind function =>
      "function with the " ++ function ++ " signature registered as " ++ kind.name
  | .storageMismatch depth =>
      depth.name ++ " samples are not stored in this table's pixel type"
  | .bufferTooSmall needed length =>
      s!"buffer too small: need {needed} samples, have {length}"
  | .missingImplementation kind block depth =>
      "no implementation registered for " ++ kind.name ++ " " ++ block.name
        ++ " at " ++ depth.name
  | .invalidCpuLevel text => "invalid cpu level: " ++ text

/-! ## §2. Broken contracts. -/

/-- The part that a buffer plays in a kernel call. -/
inductive Role where
  | source | reference | secondPredictor | topLeft | aboveEdge | leftEdge
  deriving Repr, DecidableEq

/-- The part as messages name it. -/
def Role.name : Role → String
  | .source => "source"
  | .reference => "reference"
  | .secondPredictor => "second predictor"
  | .topLeft => "top-left"
  | .aboveEdge => "above edge"
  | .leftEdge => "left edge"

/-- A condition of a kernel call that its caller did not keep. -/
inductive Violation where
  /-- The depth lives in the other cell. -/
  | wrongStorage (depth : Depth) (storage : Storage)
  /-- The size is not one of the kind's. -/
  | noKernel (kind : KernelKind) (block : BlockSize)
  /-- The block does not lie inside the plane's buffer. -/
  | planeTooSmall (role : Role) (base : Nat) (stride : Int) (length : Nat) (block : BlockSize)
  /-- A sample that the kernel would read is above the depth's maximum. -/
  | sampleTooLarge (role : Role) (value : Nat) (depth : Depth)
  /-- The second predictor does not cover the block. -/
  | secondPredictorTooShort (length : Nat) (block : BlockSize)
  /-- The border was refused. -/
  | predictionRefused (mode : IntraMode) (block : BlockSize) (cause : Error)
  /-- The block does not lie inside the destination. -/
  | destinationTooSmall (block : BlockSize)
  /-- A row would start at a negative index. -/
  | rowBeforeBuffer (row : Nat)
  /-- A kernel was handed a plane that cannot hold its block. -/
  | blockExceedsBuffer (width height base : Nat) (stride : Int) (length : Nat)
  /-- The default kernels leave a slot empty. -/
  | incompleteDefaults (cause : Error)
  /-- Comparisons failed; one line for each. -/
  | conformance (failed checks : Nat) (listing : List String)
  deriving Repr, DecidableEq

/-- The wording of a broken contract. -/
def Violation.message : Violation → String
  | .wrongStorage depth storage => depth.name ++ " samples are not stored as " ++ storage.name
  | .noKernel kind block => kind.name ++ " has no kernel for " ++ block.name
  | .planeTooSmall role base stride length block =>
      role.name ++ s!" plane (base {base}, stride {stride}, {length} samples) cannot hold a "
        ++ block.name ++ " block"
  | .sampleTooLarge role value depth =>
      role.name ++ s!" sample {value} exceeds the " ++ depth.name ++ " maximum "
        ++ toString depth.max
  | .secondPredictorTooShort length block =>
      s!"second predictor holds {length} samples, " ++ block.name ++ " needs "
        ++ toString block.area
  | .predictionRefused mode block cause =>
      mode.label ++ " prediction at " ++ block.name ++ ": " ++ cause.message
  | .destinationTooSmall block => "destination cannot hold a " ++ block.name ++ " block"
  | .rowBeforeBuffer row => s!"row {row} starts before the buffer"
  | .blockExceedsBuffer width height base stride length =>
      s!"{width}x{height} block at base {base} stride {stride} exceeds buffer of {length}"
  | .incompleteDefaults cause => "default kernel tables are incomplete: " ++ cause.message
  | .conformance failed checks listing =>
      s!"{failed} of {checks} conformance checks failed:\n"
        ++ "\n".intercalate (listing.map ("  " ++ ·))

/-! ## §3. Outcomes. -/

/-- Why a call has no answer. -/
inductive Fault where
  /-- The input was refused. -/
  | error (cause : Error)
  /-- A contract was broken. -/
  | violation (cause : Violation)
  /-- An internal check failed. -/
  | assertion
  /-- An integer left the range of its type. -/
  | overflow
  /-- A position outside a buffer was asked for. -/
  | index
  deriving Repr, DecidableEq

/-- An answer, or the fault that took its place. -/
abbrev Outcome := Except Fault

/-- A refusal seen as the fault of the call that met it. -/
def Outcome.ofRefusal {α : Type} : Except Error α → Outcome α
  | .ok a => .ok a
  | .error cause => .error (.error cause)

/-- Goes on if the condition holds and faults otherwise. -/
def Outcome.require (condition : Bool) (fault : Fault) : Outcome Unit :=
  if condition then .ok () else .error fault

namespace Outcome

@[simp] theorem require_eq_ok_iff {c : Bool} {f : Fault} {u : Unit} :
    require c f = .ok u ↔ c = true := by
  cases c <;> simp [require]

@[simp] theorem require_true (f : Fault) : require true f = .ok () := rfl

@[simp] theorem require_false (f : Fault) : require false f = .error f := rfl

@[simp] theorem ofRefusal_eq_ok_iff {α : Type} {r : Except Error α} {a : α} :
    ofRefusal r = .ok a ↔ r = .ok a := by
  cases r <;> simp [ofRefusal]

/-- A sequence succeeds when its first part does and the rest does with that answer. -/
theorem bind_eq_ok_iff {α β : Type} {x : Outcome α} {f : α → Outcome β} {b : β} :
    (x >>= f) = .ok b ↔ ∃ a, x = .ok a ∧ f a = .ok b := by
  cases x <;> simp [bind, Except.bind]

@[simp] theorem ok_bind {α β : Type} (a : α) (f : α → Outcome β) :
    ((Except.ok a : Outcome α) >>= f) = f a := rfl

@[simp] theorem error_bind {α β : Type} (e : Fault) (f : α → Outcome β) :
    ((Except.error e : Outcome α) >>= f) = .error e := rfl

end Outcome

end PixelKernels
