/-
  PixelKernels.Cpu.Level
  ──────────────────────
  **HOW MUCH OF A PROCESSOR MAY BE USED.**

  A level is an upper bound on the capabilities that selected kernels may
  need.  It only ever narrows what the processor reports: a level above the
  processor behaves like the highest level that the processor reaches.

  A level is named by one of its spellings, whatever white space surrounds
  it and whatever the case of its ASCII letters:

      scalar   scalar, none               v4       v4, x86-64-v4, avx512
      v2       v2, x86-64-v2              neon     neon
      v3       v3, x86-64-v3, avx2        native   native
-/
import PixelKernels.Cpu.Flags
import PixelKernels.Fault
import PixelKernels.Text.Blank

namespace PixelKernels

/-- An upper bound on the instruction sets in use. -/
inductive CpuLevel where
  /-- Portable kernels only. -/
  | scalar
  /-- Up to extended 128-bit integers. -/
  | v2
  /-- Up to 256-bit integers. -/
  | v3
  /-- Up to 512-bit vectors. -/
  | v4
  /-- Vectors of another architecture; nothing here. -/
  | neon
  /-- Everything that the processor reports. -/
  | native
  deriving Repr, DecidableEq, Inhabited

namespace CpuLevel

/-- Every level. -/
def all : List CpuLevel := [.scalar, .v2, .v3, .v4, .neon, .native]

/-- The level in force when nothing else is asked for. -/
def standard : CpuLevel := .native

/-- The levels that make a difference on this architecture, lowest first. -/
def platform : List CpuLevel := [.scalar, .v2, .v3, .v4, .native]

/-- The name of a level. -/
def name : CpuLevel → String
  | .scalar => "scalar"
  | .v2 => "v2"
  | .v3 => "v3"
  | .v4 => "v4"
  | .neon => "neon"
  | .native => "native"

/-- The level with its architecture spelled out. -/
def label : CpuLevel → String
  | .scalar => "Scalar"
  | .v2 => "X86V2"
  | .v3 => "X86V3"
  | .v4 => "X86V4"
  | .neon => "Neon"
  | .native => "Native"

/-- The capabilities that the level admits, as a 32-bit mask. -/
def mask : CpuLevel → Nat
  | .scalar => 0
  | .v2 => 7
  | .v3 => 15
  | .v4 => 31
  | .neon => 0
  | .native => (1 <<< 32) - 1

/-- The capabilities of a processor that the level admits. -/
def flags (level : CpuLevel) (detected : CpuFlags) : CpuFlags :=
  detected.inter (CpuFlags.truncate level.mask)

/-- The words that name a level. -/
def spellings : CpuLevel → List String
  | .scalar => ["scalar", "none"]
  | .v2 => ["v2", "x86-64-v2"]
  | .v3 => ["v3", "x86-64-v3", "avx2"]
  | .v4 => ["v4", "x86-64-v4", "avx512"]
  | .neon => ["neon"]
  | .native => ["native"]

/-- The level that a text names; a text that names none is refused as it was given. -/
def parse (text : String) : Except Error CpuLevel :=
  let word := Text.foldCase (Text.trim text)
  match all.find? fun level => level.spellings.contains word with
  | some level => .ok level
  | none => .error (.invalidCpuLevel text)

/-- A level never admits what the processor does not have. -/
theorem contains_flags (level : CpuLevel) (detected : CpuFlags) :
    detected.contains (level.flags detected) = true :=
  CpuFlags.contains_inter_left ..

end CpuLevel

namespace Processor

/-- The processor with the capabilities that a level admits. -/
def upTo (processor : Processor) (level : CpuLevel) : Processor :=
  { processor with flags := level.flags processor.flags }

@[simp] theorem flags_upTo (processor : Processor) (level : CpuLevel) :
    (processor.upTo level).flags = level.flags processor.flags := rfl

@[simp] theorem summons_upTo (processor : Processor) (level : CpuLevel) :
    (processor.upTo level).summons = processor.summons := rfl

/-- A level admits nothing for which the token would be missing. -/
theorem GrantsToken.upTo {processor : Processor} (h : processor.GrantsToken) (level : CpuLevel) :
    (processor.upTo level).GrantsToken :=
  fun hadmitted => h (CpuFlags.contains_trans (level.contains_flags processor.flags) hadmitted)

end Processor

end PixelKernels
