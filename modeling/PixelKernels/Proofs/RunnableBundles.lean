/-
  PixelKernels.Proofs.RunnableBundles
  ───────────────────────────────────
  **A BUNDLE NEEDS NO MORE THAN THE CAPABILITIES THAT IT WAS BUILT FOR.**

  All tables of a bundle are built for the same capabilities (`BuiltFor`).
  What they select may run on a processor that has these, and an entry point
  runs nothing but what is selected (`RunsOn`); on a processor that has more
  the same holds (`RunsOn.mono`).
-/
import PixelKernels.Proofs.Bundles
import PixelKernels.Proofs.TableViews

namespace PixelKernels

namespace Kernels

variable {level : CpuLevel} {flags : CpuFlags} {processor : Processor} {kernels : Kernels}

/-- Every table of a bundle was built for these capabilities. -/
structure BuiltFor (kernels : Kernels) (flags : CpuFlags) : Prop where
  eight : kernels.eight.flags = flags
  ten : kernels.ten.flags = flags
  twelve : kernels.twelve.flags = flags

theorem flags_of_buildTable {s : Storage} {depth : Depth} {table : Table s}
    (h : buildTable s depth processor = .ok table) : table.flags = processor.flags := by
  obtain ⟨registry, -, hbuild⟩ := Outcome.bind_eq_ok_iff.mp h
  exact ((Table.builtFrom_unselected registry processor.flags).foldlM hbuild).flags

theorem builtFor_of_forProcessor (h : forProcessor level processor = .ok kernels) :
    kernels.BuiltFor processor.flags := by
  obtain ⟨eight, height, h⟩ := Outcome.bind_eq_ok_iff.mp h
  obtain ⟨ten, hten, h⟩ := Outcome.bind_eq_ok_iff.mp h
  obtain ⟨twelve, htwelve, h⟩ := Outcome.bind_eq_ok_iff.mp h
  cases h
  exact ⟨flags_of_buildTable height, flags_of_buildTable hten, flags_of_buildTable htwelve⟩

/-- Whatever a bundle selects needs no more than these capabilities, and it runs nothing else. -/
structure RunsOn (kernels : Kernels) (flags : CpuFlags) : Prop where
  selected : ∀ {s : Storage} {depth : Depth} {table : Table s}, kernels.table s depth = .ok table →
    ∀ slot chosen, table.selected slot = some chosen → chosen.runsOn flags = true
  lookup : ∀ {s : Storage} {depth : Depth} {table : Table s}, kernels.table s depth = .ok table →
    ∀ slot run, table.lookup slot = .ok run →
      ∃ chosen, table.selected slot = some chosen ∧ chosen.kernel = run

theorem RunsOn.mono {more : CpuFlags} (h : kernels.RunsOn flags) (hmore : more.contains flags = true) :
    kernels.RunsOn more where
  selected := fun htable slot chosen hchosen =>
    CpuFlags.contains_trans hmore (h.selected htable slot chosen hchosen)
  lookup := h.lookup

theorem runsOn_of_selects (h : kernels.Selects processor) : kernels.RunsOn processor.flags := by
  have hholds : ∀ {s : Storage} {depth : Depth} {table : Table s}, kernels.table s depth = .ok table →
      table.Holds (defaultChoice processor) := by
    intro s depth table htable
    by_cases hdepth : depth.storage = s
    · obtain ⟨found, hfound, -, hholds⟩ := h hdepth
      rw [htable] at hfound
      cases hfound
      exact hholds
    · rw [kernels.table_of_ne hdepth] at htable
      cases htable
  constructor
  · intro s depth table htable slot chosen hchosen
    rw [(hholds htable).selected_eq, defaultChoice] at hchosen
    split at hchosen
    · cases hchosen
      exact List.find?_some (p := (Implementation.runsOn · processor.flags))
        (Registry.find?_defaults processor slot)
    · cases hchosen
  · intro s depth table htable slot run hrun
    rw [Table.lookup_eq, (hholds htable).kernelAt_eq] at hrun
    rw [(hholds htable).selected_eq]
    cases hchoice : defaultChoice (s := s) processor slot with
    | none =>
      rw [hchoice] at hrun
      cases hrun
    | some chosen =>
      rw [hchoice] at hrun
      exact ⟨chosen, rfl, Except.ok.inj hrun⟩

theorem runsOn_of_forProcessor (h : forProcessor level processor = .ok kernels) :
    kernels.level = level ∧ kernels.RunsOn processor.flags := by
  obtain ⟨hlevel, hselects⟩ := selects_of_forProcessor h
  exact ⟨hlevel, runsOn_of_selects hselects⟩

end Kernels

end PixelKernels
