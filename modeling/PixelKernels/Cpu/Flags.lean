/-
  PixelKernels.Cpu.Flags
  ──────────────────────
  **WHICH INSTRUCTION SETS A PROCESSOR HAS.**

  Five capabilities are known, one bit each, and more specialised ones sit
  higher.  A set of capabilities is the value of those five bits; bits above
  them are dropped wherever a wider number comes in.

  Capabilities decide which kernels are selected.  A kernel in vector registers
  asks the processor once more, on every call, for a token, and hands over to
  the portable kernel where it gets none; whether the token is given is known
  apart from the capabilities and never changes.
-/
namespace PixelKernels

/-- A set of instruction-set capabilities. -/
structure CpuFlags where
  bits : BitVec 5
  deriving Repr, DecidableEq, Inhabited

namespace CpuFlags

/-- Nothing beyond the baseline. -/
def none : CpuFlags := ⟨0⟩

/-- Vectors of 128 bits. -/
def sse2 : CpuFlags := ⟨1⟩

/-- Supplemental shuffles. -/
def ssse3 : CpuFlags := ⟨2⟩

/-- Extended 128-bit integers. -/
def sse41 : CpuFlags := ⟨4⟩

/-- Integer vectors of 256 bits. -/
def avx2 : CpuFlags := ⟨8⟩

/-- Vectors of 512 bits, with the extensions of the fourth level. -/
def avx512 : CpuFlags := ⟨16⟩

/-- Every known capability. -/
def all : CpuFlags := ⟨31⟩

/-- Each capability with its name, lowest bit first. -/
def named : List (String × CpuFlags) :=
  [("SSE2", sse2), ("SSSE3", ssse3), ("SSE41", sse41), ("AVX2", avx2), ("AVX512", avx512)]

/-- The known bits of a number. -/
def truncate (bits : Nat) : CpuFlags := ⟨BitVec.ofNat 5 bits⟩

/-- The set as a number. -/
def toNat (flags : CpuFlags) : Nat := flags.bits.toNat

/-- Capabilities in both sets. -/
def inter (a b : CpuFlags) : CpuFlags := ⟨a.bits &&& b.bits⟩

/-- Capabilities in either set. -/
def union (a b : CpuFlags) : CpuFlags := ⟨a.bits ||| b.bits⟩

/-- Whether every capability of `needed` is there. -/
def contains (flags needed : CpuFlags) : Bool := flags.bits &&& needed.bits == needed.bits

/-- Whether the set is empty. -/
def isEmpty (flags : CpuFlags) : Bool := flags.bits == 0

/-- Whether a number has no bits but known ones. -/
def isExact (bits : Nat) : Bool := (truncate bits).toNat == bits

/-- Names of the capabilities in the set. -/
def names (flags : CpuFlags) : List String :=
  (named.filter fun (_, flag) => flags.contains flag).map (·.1)

/-- How specialised code is that needs this set: one more than its highest bit, 0 for none. -/
def preference (flags : CpuFlags) : Nat :=
  if flags.toNat = 0 then 0 else flags.toNat.log2 + 1

@[simp] theorem contains_none (flags : CpuFlags) : flags.contains none = true := by
  simp [contains, none]

theorem contains_self (flags : CpuFlags) : flags.contains flags = true := by
  simp [contains]

/-- What is in a part of a set is in the set. -/
theorem contains_trans {a b c : CpuFlags} (hab : a.contains b = true)
    (hbc : b.contains c = true) : a.contains c = true := by
  simp only [contains, beq_iff_eq] at *
  rw [← hbc, ← BitVec.and_assoc, hab]

/-- An intersection is contained in its first set. -/
theorem contains_inter_left (a b : CpuFlags) : a.contains (a.inter b) = true := by
  simp only [contains, inter, beq_iff_eq]
  rw [← BitVec.and_assoc, BitVec.and_self]

end CpuFlags

/-- A processor, as far as it may be used. -/
structure Processor where
  /-- The capabilities that kernels may be selected for. -/
  flags : CpuFlags
  /-- Whether kernels in vector registers are given the token that they ask for. -/
  summons : Bool
  deriving Repr, DecidableEq, Inhabited

namespace Processor

/-- Every capability, and the token. -/
def full : Processor := ⟨.all, true⟩

/-- Where kernels in 256-bit registers can be selected, they are given their token. -/
def GrantsToken (processor : Processor) : Prop :=
  processor.flags.contains .avx2 = true → processor.summons = true

instance (processor : Processor) : Decidable processor.GrantsToken :=
  inferInstanceAs (Decidable (_ → _))

end Processor

end PixelKernels
