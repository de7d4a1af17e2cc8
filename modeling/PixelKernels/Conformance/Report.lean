/-
  PixelKernels.Conformance.Report
  ───────────────────────────────
  **COMPARISONS MADE, AND THOSE THAT FAILED.**

  A report counts comparisons and keeps the failed ones in the order in
  which they were made.  Reports are merged by adding the counts and by
  appending the failures.  A count must stay within 64 bits.
-/
import PixelKernels.Machine

namespace PixelKernels

/-! ## §1. Reports. -/

/-- One failed comparison. -/
structure Mismatch where
  key : KernelKey
  /-- Name of the implementation. -/
  implementation : String
  scenario : String
  expected : Nat
  actual : Nat
  deriving Repr, DecidableEq

/-- A failed comparison as one line. -/
def Mismatch.line (m : Mismatch) : String :=
  m.key.name ++ " [" ++ m.implementation ++ "] " ++ m.scenario
    ++ s!": expected {m.expected}, got {m.actual}"

/-- The comparisons of a run. -/
structure Report where
  /-- How many were made. -/
  checks : Nat := 0
  /-- Those that failed, oldest first. -/
  failures : Array Mismatch := #[]
  deriving Repr, DecidableEq, Inhabited

namespace Report

/-- Whether nothing failed. -/
def isClean (report : Report) : Bool := report.failures.isEmpty

/-- Both reports as one. -/
def merge (report other : Report) : Outcome Report := do
  pure ⟨← asUInt64 (report.checks + other.checks), report.failures ++ other.failures⟩

/-- Requires that nothing failed; otherwise every failure is listed. -/
def assertClean (report : Report) : Outcome Unit :=
  Outcome.require report.isClean
    (.violation (.conformance report.failures.size report.checks
      (report.failures.toList.map Mismatch.line)))

/-! ## §2. Trials. -/

/-- One comparison: what was expected, what came out, and whether that will do. -/
structure Trial where
  key : KernelKey
  /-- Name of the implementation. -/
  implementation : String
  scenario : String
  expected : Nat
  actual : Nat
  passed : Bool
  deriving Repr, DecidableEq

/-- A comparison that passes when both sides are equal. -/
def Trial.equal (key : KernelKey) (implementation scenario : String) (expected actual : Nat) :
    Trial :=
  ⟨key, implementation, scenario, expected, actual, expected == actual⟩

/-- The failure that a comparison records. -/
def Trial.mismatch (t : Trial) : Mismatch :=
  ⟨t.key, t.implementation, t.scenario, t.expected, t.actual⟩

/-- The report with one more comparison. -/
def record (report : Report) (trial : Trial) : Outcome Report := do
  let checks ← asUInt64 (report.checks + 1)
  pure ⟨checks, if trial.passed then report.failures else report.failures.push trial.mismatch⟩

/-- The report with more comparisons; each may fault, which ends them. -/
def recordAll (report : Report) : List (Outcome Trial) → Report × Outcome Unit
  | [] => (report, .ok ())
  | trial :: rest =>
      match trial >>= report.record with
      | .ok report => recordAll report rest
      | .error fault => (report, .error fault)

end Report

end PixelKernels
