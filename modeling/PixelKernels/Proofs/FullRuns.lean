/-
  PixelKernels.Proofs.FullRuns
  ────────────────────────────
  **A FULL RUN OVER THE KERNELS OF THE LIBRARY IS CLEAN.**

  One run of a harness over right kernels leaves the failures as they are and
  adds few comparisons to the count (`Report.Gains`).  A full run is nothing
  but such runs one after another:

    • the scenarios of a slot, by induction on them, with the block and the
      depth of the harness as the invariant (`runScenarios_gains`);
    • the slots of the catalog, by induction on them (`foldlM_gains`).

  There are 82 slots of at most ten scenarios, so the count stays far below
  its limit and nothing else could go wrong.
-/
import PixelKernels.Conformance.Run
import PixelKernels.Proofs.BuiltTables
import PixelKernels.Proofs.CleanRuns

namespace PixelKernels

open Report (Adds)

variable {s : Storage}

/-! ## §1. Reports that only count. -/

namespace Report

/-- The failures as they were, and at most so many comparisons more. -/
structure Gains (before after : Report) (most : Nat) : Prop where
  failures_eq : after.failures = before.failures
  checks_le : after.checks ≤ before.checks + most

variable {before between after : Report} {most more : Nat}

theorem Gains.trans (h : before.Gains between most) (h' : between.Gains after more) :
    before.Gains after (most + more) where
  failures_eq := h'.failures_eq.trans h.failures_eq
  checks_le := by
    have hfirst := h.checks_le
    have hsecond := h'.checks_le
    omega

theorem Gains.mono (h : before.Gains after most) (hle : most ≤ more) : before.Gains after more where
  failures_eq := h.failures_eq
  checks_le := h.checks_le.trans (Nat.add_le_add_left hle _)

/-- Comparisons without a failure are counted if there is room for them. -/
theorem Adds.gains {made : Nat} {result : Report × Outcome Unit} (h : before.Adds made [] result)
    (hmade : made ≤ most) (hroom : before.checks + most < 1 <<< 64) :
    ∃ after, result = (after, .ok ()) ∧ before.Gains after most := by
  refine ⟨_, h.counted (by omega), ?_, Nat.add_le_add_left hmade _⟩
  simp

end Report

/-! ## §2. One run after another. -/

namespace Conformance

/-- **Scenario after scenario, a report only counts**, if each run does and leaves a harness for the
next. -/
theorem runScenarios_gains {H Scenario : Type} {run : H → Scenario → Report → H × Report × Outcome Unit}
    {valid : H → Prop} {most : Nat}
    (hrun : ∀ harness scenario report, valid harness → report.checks + most < 1 <<< 64 →
      ∃ next after, run harness scenario report = (next, after, .ok ()) ∧ valid next ∧
        report.Gains after most) {scenarios : List Scenario} :
    ∀ {harness : H} {report : Report}, valid harness →
      report.checks + scenarios.length * most < 1 <<< 64 →
        ∃ after, runScenarios run harness report scenarios = .ok after ∧
          report.Gains after (scenarios.length * most) := by
  induction scenarios with
  | nil =>
    intro harness report _ _
    exact ⟨report, rfl, rfl, Nat.le_add_right _ _⟩
  | cons scenario rest ih =>
    intro harness report hvalid hroom
    rw [List.length_cons, Nat.succ_mul, Nat.add_comm _ most] at hroom ⊢
    obtain ⟨next, between, hfirst, hnext, hgains⟩ := hrun harness scenario report hvalid (by omega)
    have hchecks := hgains.checks_le
    obtain ⟨after, hrest, hmore⟩ := ih hnext (show between.checks + rest.length * most < 1 <<< 64 by omega)
    refine ⟨after, ?_, hgains.trans hmore⟩
    rw [runScenarios, hfirst]
    exact hrest

/-- Step after step, a report only counts, if each step does. -/
theorem foldlM_gains {α : Type} {step : Report → α → Outcome Report} {most : Nat} {l : List α}
    (hstep : ∀ a ∈ l, ∀ report, report.checks + most < 1 <<< 64 →
      ∃ after, step report a = .ok after ∧ report.Gains after most) :
    ∀ {report : Report}, report.checks + l.length * most < 1 <<< 64 →
      ∃ after, l.foldlM step report = .ok after ∧ report.Gains after (l.length * most) := by
  induction l with
  | nil =>
    intro report _
    exact ⟨report, rfl, rfl, Nat.le_add_right _ _⟩
  | cons a rest ih =>
    intro report hroom
    rw [List.length_cons, Nat.succ_mul, Nat.add_comm _ most] at hroom ⊢
    obtain ⟨between, hfirst, hgains⟩ := hstep a List.mem_cons_self report (by omega)
    have hchecks := hgains.checks_le
    have hrest : ∀ b ∈ rest, _ := fun b hb => hstep b (List.mem_cons_of_mem a hb)
    obtain ⟨after, hlast, hmore⟩ := ih hrest (show between.checks + rest.length * most < 1 <<< 64 by omega)
    refine ⟨after, ?_, hgains.trans hmore⟩
    rw [List.foldlM_cons, hfirst]
    exact hlast

end Conformance

/-! ## §3. Slots. -/

/-- A kernel that is right where the harness of a slot asks it. -/
def KernelFn.IsRight (depth : Depth) (slot : Slot) (kernel : KernelFn s) : Prop :=
  match slot.kind with
  | .intra predictor => kernel.PredictsExactly depth predictor slot.block.width
  | _ => kernel.CostsExactly depth slot.block

/-- A table with right candidates, and at most two of them for each slot. -/
structure Table.HoldsRight (table : Table s) : Prop where
  right : ∀ slot, slot.supported = true → ∀ c ∈ table.candidates slot, c.kernel.IsRight table.depth slot
  few : ∀ slot, (table.candidates slot).length ≤ 2

namespace Conformance

/-- Room for the comparisons of a slot; a predictor of side 32 needs most, with seven scenarios, two
candidates and 1360 cells. -/
def slotRoom : Nat := 7 * (1360 * 2)

variable {block : BlockSize} {depth : Depth} {candidates : List (Implementation s)} {report : Report}

/-- **All scenarios of a difference only count.** -/
theorem differences_gain (kind : KernelKind) (hfew : candidates.length ≤ 2)
    (hright : ∀ c ∈ candidates, c.kernel.CostsExactly depth block) {harness : SadHarness s}
    (hblock : harness.block = block) (hdepth : harness.depth = depth)
    (hroom : report.checks + slotRoom < 1 <<< 64) :
    ∃ after, runScenarios (fun h scenario r => h.run kind candidates scenario r) harness report
        SadScenario.all = .ok after ∧ report.Gains after slotRoom := by
  have hslot : slotRoom = 19040 := rfl
  have hcount : SadScenario.all.length * 12 = 120 := rfl
  have hrun : ∀ (h : SadHarness s) (scenario : SadScenario) (r : Report),
      h.block = block ∧ h.depth = depth → r.checks + 12 < 1 <<< 64 →
        ∃ next after, h.run kind candidates scenario r = (next, after, .ok ()) ∧
          (next.block = block ∧ next.depth = depth) ∧ r.Gains after 12 := by
    rintro h scenario r ⟨rfl, rfl⟩ hspace
    obtain ⟨_, next, _, hpresents, made, hmade, hreport⟩ := h.run_of_costsExactly kind scenario hright
    obtain ⟨hnext, hadds⟩ := hreport r
    obtain ⟨after, hafter, hgains⟩ := hadds.gains (by omega) hspace
    exact ⟨next, after, Prod.ext hnext hafter, ⟨hpresents.block_eq, hpresents.depth_eq⟩, hgains⟩
  obtain ⟨after, hafter, hgains⟩ := runScenarios_gains hrun ⟨hblock, hdepth⟩
    (show report.checks + SadScenario.all.length * 12 < 1 <<< 64 by omega)
  exact ⟨after, hafter, hgains.mono (by omega)⟩

/-- **All scenarios of a prediction only count.** -/
theorem predictions_gain (kernel : IntraKernel) (hfew : candidates.length ≤ 2)
    (hright : ∀ c ∈ candidates, c.kernel.PredictsExactly depth kernel block.width)
    {harness : IntraHarness s} (hblock : harness.block = block) (hdepth : harness.depth = depth)
    (hroom : report.checks + slotRoom < 1 <<< 64) :
    ∃ after, runScenarios (fun h scenario r => h.run kernel candidates scenario r) harness report
        IntraScenario.all = .ok after ∧ report.Gains after slotRoom := by
  have hrun : ∀ (h : IntraHarness s) (scenario : IntraScenario) (r : Report),
      h.block = block ∧ h.depth = depth → r.checks + 1360 * 2 < 1 <<< 64 →
        ∃ next after, h.run kernel candidates scenario r = (next, after, .ok ()) ∧
          (next.block = block ∧ next.depth = depth) ∧ r.Gains after (1360 * 2) := by
    rintro h scenario r ⟨rfl, rfl⟩ hspace
    obtain ⟨next, _, hpresents, made, hmade, hreport⟩ := h.run_of_predictsExactly kernel scenario hright
    obtain ⟨hnext, hadds⟩ := hreport r
    obtain ⟨after, hafter, hgains⟩ := hadds.gains (by omega) hspace
    exact ⟨next, after, Prod.ext hnext hafter, ⟨hpresents.block_eq, hpresents.depth_eq⟩, hgains⟩
  exact runScenarios_gains hrun ⟨hblock, hdepth⟩ hroom

section Tables

variable {table : Table s} (h : table.HoldsRight) (available : CpuFlags) (draws : Draws table.depth)
include h

/-- **Every slot of a table with right candidates only counts.** -/
theorem runSlot_gains {slot : Slot} (hslot : slot.supported = true)
    (hroom : report.checks + slotRoom < 1 <<< 64) :
    ∃ after, runSlot table available draws report slot = .ok after ∧ report.Gains after slotRoom := by
  obtain ⟨kind, block⟩ := slot
  have hfew : (table.runnable ⟨kind, block⟩ available).length ≤ 2 :=
    (List.length_filter_le _ _).trans (h.few _)
  have hright : ∀ c ∈ table.runnable ⟨kind, block⟩ available, c.kernel.IsRight table.depth ⟨kind, block⟩ :=
    fun c hc => h.right _ hslot c (List.mem_filter.mp hc).1
  cases kind with
  | intra kernel =>
    have hmake : IntraHarness.make s block table.depth draws
        = .ok { block, depth := table.depth, stored := table.stored, square := hslot, draws } :=
      (dif_pos table.stored).trans (dif_pos (show (KernelKind.intra .dc).supports block = true from hslot))
    unfold runSlot
    simp only [hmake]
    exact predictions_gain kernel hfew hright rfl rfl hroom
  | sad | sadBounded | sadX4 | sadAvg =>
    have hmake : SadHarness.make s block table.depth draws
        = .ok { block, depth := table.depth, stored := table.stored, draws } := dif_pos table.stored
    unfold runSlot
    simp only [hmake]
    exact differences_gain _ hfew hright rfl rfl hroom

/-- **A full run over a table with right candidates is clean**, whatever is drawn and whichever of the
candidates the processor can execute. -/
theorem runAllWith_clean :
    ∃ report, runAllWith table available draws = .ok report ∧ report.isClean = true := by
  have hslots : ∀ slot ∈ Slot.catalog, ∀ report : Report, report.checks + slotRoom < 1 <<< 64 →
      ∃ after, runSlot table available draws report slot = .ok after ∧ report.Gains after slotRoom :=
    fun slot hslot report hroom => runSlot_gains h available draws (Slot.mem_catalog.mp hslot) hroom
  obtain ⟨report, hreport, hgains⟩ := foldlM_gains hslots (show ({} : Report).checks + _ < 1 <<< 64 by decide)
  refine ⟨report, hreport, ?_⟩
  rw [Report.isClean, hgains.failures_eq]
  rfl

end Tables

end Conformance

/-! ## §4. The kernels of the library. -/

/-- A slot has a portable default, and a wide one at most. -/
theorem length_defaults_le (summons : Bool) (slot : Slot) :
    (Registry.defaults (s := s) summons slot).length ≤ 2 := by
  unfold Registry.defaults
  cases wideImplementation? (s := s) summons slot with
  | none => exact Nat.le_succ 1
  | some wide => exact Nat.le_refl 2

/-- A table of the defaults keeps the depth, and lists the defaults of every supported slot. -/
theorem Kernels.candidates_of_buildTable {depth : Depth} (hdepth : depth.storage = s)
    {processor : Processor} {table : Table s} (h : Kernels.buildTable s depth processor = .ok table) :
    table.depth = depth ∧ ∀ slot, table.candidates slot
      = if slot.supported then Registry.defaults processor.summons slot else [] := by
  obtain ⟨registry, hregistry, hbuild⟩ := Outcome.bind_eq_ok_iff.mp h
  have hbuilt := (Table.builtFrom_unselected registry processor.flags).foldlM hbuild
  obtain ⟨found, hfound, hfoundDepth, hcandidates⟩ :=
    Registry.withDefaults_eq processor.summons hdepth
  rw [hfound] at hregistry
  obtain rfl := Except.ok.inj hregistry
  exact ⟨hbuilt.depth.trans hfoundDepth, fun slot => by rw [hbuilt.candidates, hcandidates]⟩

/-- **The kernels of the library are right**, whichever of them a table selects. -/
theorem Kernels.holdsRight_of_buildTable {depth : Depth} {processor : Processor}
    {table : Table depth.storage} (h : Kernels.buildTable depth.storage depth processor = .ok table) :
    table.HoldsRight := by
  obtain ⟨hdepth, hcandidates⟩ := candidates_of_buildTable rfl h
  constructor
  · intro slot hslot c hc
    rw [hcandidates, if_pos hslot] at hc
    rw [hdepth]
    obtain ⟨kind, block⟩ := slot
    cases kind with
    | intra kernel => exact predictsExactly_of_mem_defaults hslot hc
    | sad | sadBounded | sadX4 | sadAvg =>
      obtain ⟨chosen, rfl⟩ := exists_choice_of_mem_defaults hc
      exact costsExactly_choice ⟨chosen, processor.summons⟩ _
  · intro slot
    rw [hcandidates]
    split
    · exact length_defaults_le processor.summons slot
    · exact Nat.zero_le 2

/-- **Harnesses never accuse kernels that are right, and never fail themselves.**  Whatever the stream
draws, every scenario is presented; a run of right candidates ends without a fault, as long as the
count has room, and adds no failure.  The kernels of the library are right, so a full run over them is
clean for every depth, every processor, and every seed of every generator. -/
theorem harnesses_clear_right_kernels :
    (∀ (s : Storage) (harness : SadHarness s) (kind : KernelKind) (scenario : SadScenario)
      (candidates : List (Implementation s)),
        (∀ c ∈ candidates, c.kernel.CostsExactly harness.depth harness.block) →
          ∃ buffers next setting, harness.Presents kind scenario buffers next setting ∧
            ∃ made ≤ 6 * candidates.length, ∀ report : Report,
              (harness.run kind candidates scenario report).1 = next ∧
              report.Adds made [] (harness.run kind candidates scenario report).2) ∧
    (∀ (s : Storage) (harness : IntraHarness s) (kernel : IntraKernel) (scenario : IntraScenario)
      (candidates : List (Implementation s)),
        (∀ c ∈ candidates, c.kernel.PredictsExactly harness.depth kernel harness.side) →
          ∃ next setting, harness.Presents kernel scenario next setting ∧
            ∃ made ≤ 1360 * candidates.length, ∀ report : Report,
              (harness.run kernel candidates scenario report).1 = next ∧
              report.Adds made [] (harness.run kernel candidates scenario report).2) ∧
    ∀ (depth : Depth) (processor : Processor),
      ∃ table, Kernels.buildTable depth.storage depth processor = .ok table ∧ table.depth = depth ∧
        ∀ available : CpuFlags,
          (∀ draws : Draws table.depth, ∃ report,
            Conformance.runAllWith table available draws = .ok report ∧ report.isClean = true) ∧
          ∀ (generator : Generator) (seed : Nat), ∃ report,
            Conformance.runAllWithSeed table available generator seed = .ok report ∧
              report.isClean = true := by
  refine ⟨?_, ?_, ?_⟩
  · intro s harness kind scenario candidates hright
    exact harness.run_of_costsExactly kind scenario hright
  · intro s harness kernel scenario candidates hright
    exact harness.run_of_predictsExactly kernel scenario hright
  · intro depth processor
    obtain ⟨table, htable, hdepth, -⟩ := buildTable_defaults (rfl : depth.storage = _) processor
    have hholds := Kernels.holdsRight_of_buildTable htable
    refine ⟨table, htable, hdepth, fun available => ⟨fun draws => ?_, fun generator seed => ?_⟩⟩
    · exact Conformance.runAllWith_clean hholds available draws
    · exact Conformance.runAllWith_clean hholds available (generator table.depth seed)

/-- A stream that counts up through the bytes, over and over. -/
def countingDraws : Draws .eight :=
  fun i => ⟨i % (Depth.eight.max + 1), Nat.mod_lt i (Nat.succ_pos Depth.eight.max)⟩

/-- Both differences of the library pass the scenario whose references are read bottom-up, and the
predictor passes the one whose sums clip. -/
theorem defaults_pass_bottom_up_and_clipped :
    ((∀ c ∈ Registry.defaults (s := .byte) true ⟨.sad, .b16x16⟩, c.kernel.CostsExactly .eight .b16x16) ∧
      ∃ harness next report, SadHarness.make .byte .b16x16 .eight countingDraws = .ok harness ∧
        harness.run .sad (Registry.defaults true ⟨.sad, .b16x16⟩) .negativeStride {}
          = (next, report, .ok ()) ∧ report.isClean = true) ∧
    (∀ c ∈ Registry.defaults (s := .byte) true ⟨.intra .tm, .b4x4⟩,
        c.kernel.PredictsExactly .eight .tm 4) ∧
      ∃ next report,
        smallHarness.run .tm (Registry.defaults true ⟨.intra .tm, .b4x4⟩) .aboveMaxLeftZero {}
          = (next, report, .ok ()) ∧ report.isClean = true := by
  constructor
  · have hright : ∀ c ∈ Registry.defaults (s := .byte) true ⟨.sad, .b16x16⟩,
        c.kernel.CostsExactly .eight .b16x16 := by
      intro c hc
      obtain ⟨flags, rfl⟩ := exists_choice_of_mem_defaults hc
      exact costsExactly_choice ⟨flags, true⟩ _
    obtain ⟨_, next, _, -, made, hmade, hreport⟩ :=
      harnesses_clear_right_kernels.1 .byte ⟨.b16x16, .eight, rfl, countingDraws, 0⟩ .sad
        .negativeStride _ hright
    obtain ⟨hnext, hadds⟩ := hreport {}
    have hroom : made ≤ 6 * 2 := hmade
    have hreported := hadds.counted (show 0 + made < 1 <<< 64 by omega)
    exact ⟨hright, _, next, _, rfl, Prod.ext hnext hreported, rfl⟩
  · have hright : ∀ c ∈ Registry.defaults (s := .byte) true ⟨.intra .tm, .b4x4⟩,
        c.kernel.PredictsExactly .eight .tm 4 :=
      fun c hc => @predictsExactly_of_mem_defaults .eight .b4x4 true .tm c rfl hc
    obtain ⟨next, _, -, made, hmade, hreport⟩ :=
      harnesses_clear_right_kernels.2.1 .byte smallHarness .tm .aboveMaxLeftZero _ hright
    obtain ⟨hnext, hadds⟩ := hreport {}
    have hroom : made ≤ 1360 * 1 := hmade
    have hreported := hadds.counted (show 0 + made < 1 <<< 64 by omega)
    exact ⟨hright, next, _, Prod.ext hnext hreported, rfl⟩

end PixelKernels
