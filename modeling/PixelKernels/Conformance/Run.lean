/-
  PixelKernels.Conformance.Run
  ────────────────────────────
  **EVERY SCENARIO ON EVERY CANDIDATE OF A TABLE.**

  A full run takes the slots in catalog order.  Each slot gets a harness of
  its own, all of them start from the same seed, and every scenario is run
  on the candidates that the processor can execute, selected or not.
-/
import PixelKernels.Conformance.IntraHarness
import PixelKernels.Conformance.SadHarness
import PixelKernels.Dispatch.Table

namespace PixelKernels.Conformance

variable {s : Storage}

/-- Runs a harness through scenarios, adding to one report, up to the first fault. -/
def runScenarios {H Scenario : Type}
    (run : H → Scenario → Report → H × Report × Outcome Unit) (harness : H) (report : Report) :
    List Scenario → Outcome Report
  | [] => .ok report
  | scenario :: rest =>
      match run harness scenario report with
      | (harness, report, .ok ()) => runScenarios run harness report rest
      | (_, _, .error fault) => .error fault

/-- Runs every scenario of a slot. -/
def runSlot (table : Table s) (available : CpuFlags) (draws : Draws table.depth)
    (report : Report) (slot : Slot) : Outcome Report :=
  let candidates := table.runnable slot available
  match slot.kind with
  | .intra kernel =>
      match IntraHarness.make s slot.block table.depth draws with
      | .error _ => .ok report
      | .ok harness =>
          runScenarios (fun h scenario r => h.run kernel candidates scenario r) harness report
            IntraScenario.all
  | kind =>
      match SadHarness.make s slot.block table.depth draws with
      | .error _ => .ok report
      | .ok harness =>
          runScenarios (fun h scenario r => h.run kind candidates scenario r) harness report
            SadScenario.all

/-- Runs every scenario on every candidate of a table that the processor can execute. -/
def runAllWith (table : Table s) (available : CpuFlags) (draws : Draws table.depth) :
    Outcome Report :=
  Slot.catalog.foldlM (runSlot table available draws) {}

/-- The same with the stream that a generator makes from a seed. -/
def runAllWithSeed (table : Table s) (available : CpuFlags) (generator : Generator) (seed : Nat) :
    Outcome Report :=
  runAllWith table available (generator table.depth seed)

/-- The seed that is used when none is given. -/
def defaultSeed : Nat := 0xbaba646574736565

/-- The same with the default seed. -/
def runAll (table : Table s) (available : CpuFlags) (generator : Generator) : Outcome Report :=
  runAllWithSeed table available generator defaultSeed

end PixelKernels.Conformance
