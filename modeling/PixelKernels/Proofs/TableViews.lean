/-
  PixelKernels.Proofs.TableViews
  ──────────────────────────────
  **A TABLE RUNS THE KERNEL THAT IT REPORTS.**

  A choice is written down twice: as a function, in the array of its kind, and
  as an implementation, in one array over all kinds and sizes.  Entry points
  look at the first, diagnostics and listings at the second.

    • `Table.lookup` is what an entry point finds; it reads `Table.kernelAt`
      and nothing else (`lookup_eq`).
    • One installation writes one entry of each array, both under the slot of
      the choice, and fails only for a kernel of another signature
      (`installs_of_signature`).
    • So what a built table looks up, selects and lists is one choice for each
      slot of the catalog, and nothing for any other (`Holds.agrees`).
-/
import PixelKernels.Proofs.BuiltTables

namespace PixelKernels

variable {s : Storage}

namespace BlockSize

theorem nodup_all : all.Nodup := by decide

theorem getElem?_all_rank (block : BlockSize) : all[block.rank]? = some block := by
  cases block <;> rfl

end BlockSize

namespace Table

/-! ## §1. Looking up. -/

/-- What the entry point of a slot's kind finds for its size. -/
def lookup (table : Table s) (slot : Slot) : Outcome (KernelFn s) :=
  match slot.kind with
  | .sad => .sad <$> table.sadAt slot.block
  | .sadBounded => .sadBounded <$> table.sadBoundedAt slot.block
  | .sadX4 => .sadX4 <$> table.sadX4At slot.block
  | .sadAvg => .sadAvg <$> table.sadAvgAt slot.block
  | .intra kernel => .intra <$> table.intraAt kernel slot.block

theorem map_entry {α β : Type} (f : α → β) (kind : KernelKind) (block : BlockSize) (run? : Option α) :
    f <$> entry kind block run? = entry kind block (run?.map f) := by
  cases run? <;> rfl

/-- **An entry point finds the kernel of its slot.** -/
theorem lookup_eq (table : Table s) (slot : Slot) :
    table.lookup slot = entry slot.kind slot.block (table.kernelAt slot) := by
  obtain ⟨kind, block⟩ := slot
  cases kind <;> exact map_entry ..

/-! ## §2. One installation. -/

/-- The functions of a kind, by the place of the size in the catalog. -/
def functions (table : Table s) (kind : KernelKind) : List (Option (KernelFn s)) :=
  BlockSize.all.map fun block => table.kernelAt ⟨kind, block⟩

/-- The choices for all slots, by number. -/
def choices (table : Table s) : List (Option (Implementation s)) := Slot.grid.map table.selected

/-- A choice is written into one array of functions and into the choices, and nowhere else. -/
structure Writes (table : Table s) (slot : Slot) (chosen : Implementation s) (next : Table s) :
    Prop where
  choices : next.choices = table.choices.set slot.index (some chosen)
  functions : next.functions slot.kind
    = (table.functions slot.kind).set slot.block.rank (some chosen.kernel)
  others : ∀ kind, kind ≠ slot.kind → next.functions kind = table.functions kind

/-- **A kernel of the right signature is installed under its slot.** -/
theorem installs_of_signature (table : Table s) {slot : Slot} {chosen : Implementation s}
    (h : chosen.kernel.signature = slot.kind.signature) :
    ∃ next, table.install slot chosen = .ok next ∧ table.Writes slot chosen next := by
  obtain ⟨kind, block⟩ := slot
  obtain ⟨next, hnext, -, hkernel, hselected⟩ := install_of_signature table h
  refine ⟨next, hnext, ?_, ?_, ?_⟩
  · rw [choices, hselected]
    exact map_assign Slot.nodup_grid Slot.getElem?_grid_index _ _ _
  · -- within the kind, the slot is changed exactly where the size is
    have hkind : (fun size => next.kernelAt ⟨kind, size⟩)
        = assign (fun size => table.kernelAt ⟨kind, size⟩) block (some chosen.kernel) := by
      funext size
      rw [hkernel]
      simp only [Slot.mk.injEq, true_and, assign]
    show BlockSize.all.map (fun size => next.kernelAt ⟨kind, size⟩) = _
    rw [hkind]
    exact map_assign BlockSize.nodup_all BlockSize.getElem?_all_rank _ _ _
  · intro other hother
    refine List.map_congr_left fun size _ => ?_
    rw [hkernel, if_neg fun hslot => hother (congrArg Slot.kind hslot)]

/-! ## §3. Built tables. -/

/-- What a table looks up, what it has selected and what it lists is the same, and comes from the
candidates of the registry. -/
structure Agrees (table : Table s) (registry : Registry s) : Prop where
  candidates : table.candidates = registry.candidates
  /-- An entry point finds the kernel of the selected candidate. -/
  supported : ∀ slot, slot.supported = true → ∃ chosen ∈ table.candidates slot,
    table.selected slot = some chosen ∧ table.lookup slot = .ok chosen.kernel
  /-- At a size that is not one of the kind's, nothing is selected and the entry point refuses. -/
  unsupported : ∀ slot, slot.supported = false →
    table.selected slot = none ∧
      table.lookup slot = .error (.violation (.noKernel slot.kind slot.block))
  /-- The listed keys are those of the catalog, in its order, whatever is selected for them. -/
  keys : table.describe.map Prod.fst = Slot.catalog.map fun slot => ⟨slot, registry.depth⟩
  /-- No key is listed twice. -/
  once : (table.describe.map Prod.fst).Nodup
  names : ∀ key name, (key, name) ∈ table.describe →
    ∃ chosen, table.selected key.toSlot = some chosen ∧ chosen.name = name

/-- Where every slot of the catalog has a choice, all of its keys are listed. -/
theorem keys_describe {table : Table s}
    (h : ∀ slot ∈ Slot.catalog, (table.selected slot).isSome = true) :
    table.describe.map Prod.fst = Slot.catalog.map fun slot => ⟨slot, table.depth⟩ := by
  have hkey : ∀ slot ∈ Slot.catalog,
      ((table.selected slot).map fun chosen => ((⟨slot, table.depth⟩ : KernelKey), chosen.name)).map
        Prod.fst = some ⟨slot, table.depth⟩ := by
    intro slot hslot
    obtain ⟨chosen, hchosen⟩ := Option.isSome_iff_exists.mp (h slot hslot)
    rw [hchosen]
    rfl
  calc table.describe.map Prod.fst
      = Slot.catalog.filterMap fun slot => ((table.selected slot).map fun chosen =>
          ((⟨slot, table.depth⟩ : KernelKey), chosen.name)).map Prod.fst := List.map_filterMap
    _ = Slot.catalog.filterMap fun slot => some ⟨slot, table.depth⟩ := List.filterMap_congr hkey
    _ = Slot.catalog.map fun slot => ⟨slot, table.depth⟩ := congrFun List.filterMap_eq_map _

/-- **What a table holds is what it looks up, selects and lists.** -/
theorem Holds.agrees {registry : Registry s} {flags : CpuFlags} {table : Table s}
    (hholds : table.Holds (registry.chosen flags)) (hbuilt : table.BuiltFrom registry flags)
    (hcovers : ∀ slot ∈ Slot.catalog, registry.Covers flags slot) : table.Agrees registry := by
  have hsupported : ∀ slot, slot.supported = true → ∃ chosen ∈ table.candidates slot,
      table.selected slot = some chosen ∧ table.lookup slot = .ok chosen.kernel := by
    intro slot hslot
    obtain ⟨chosen, hchosen⟩ :=
      Option.isSome_iff_exists.mp (Registry.covers_iff.mp (hcovers slot (Slot.mem_catalog.mpr hslot)))
    have hheld : registry.chosen flags slot = some chosen := by
      rw [Registry.chosen, if_pos hslot, hchosen]
    refine ⟨chosen, ?_, ?_, ?_⟩
    · rw [hbuilt.candidates]
      exact List.mem_of_find?_eq_some hchosen
    · rw [hholds.selected_eq, hheld]
    · rw [lookup_eq, hholds.kernelAt_eq, hheld]
      rfl
  have hkeys : table.describe.map Prod.fst = Slot.catalog.map fun slot => ⟨slot, registry.depth⟩ := by
    rw [← hbuilt.depth]
    refine keys_describe fun slot hslot => ?_
    obtain ⟨chosen, -, hselected, -⟩ := hsupported slot (Slot.mem_catalog.mp hslot)
    rw [hselected]
    rfl
  refine ⟨hbuilt.candidates, hsupported, ?_, hkeys, ?_, ?_⟩
  · intro slot hslot
    have hheld : registry.chosen flags slot = none := if_neg (ne_true_of_eq_false hslot)
    refine ⟨?_, ?_⟩
    · rw [hholds.selected_eq, hheld]
    · rw [lookup_eq, hholds.kernelAt_eq, hheld]
      rfl
  · rw [hkeys]
    exact Registry.nodup_catalog.map fun _ _ heq => congrArg KernelKey.toSlot heq
  · intro key name hentry
    obtain ⟨slot, -, hlisted⟩ := List.mem_filterMap.mp hentry
    obtain ⟨chosen, hchosen, hpair⟩ := Option.map_eq_some_iff.mp hlisted
    cases hpair
    exact ⟨chosen, hchosen, rfl⟩

end Table

namespace Registry

/-- How a registry is turned into tables. -/
structure BuildsAgreeing (registry : Registry s) (flags : CpuFlags) : Prop where
  /-- Whatever is selected for a slot can be installed into any table. -/
  installs : ∀ (table : Table s) slot chosen, registry.select flags slot = some chosen →
    ∃ next, table.install slot chosen = .ok next ∧ table.Writes slot chosen next
  /-- So the arm for a kernel of another signature is never taken. -/
  matched : registry.build flags ≠ .error .assertion
  agrees : ∀ table, registry.build flags = .ok table → table.Agrees registry

theorem WellSigned.buildsAgreeing {registry : Registry s} (h : registry.WellSigned)
    (flags : CpuFlags) : registry.BuildsAgreeing flags where
  installs := fun table _ _ hselect => table.installs_of_signature (signature_of_select h hselect)
  matched := by
    intro hfault
    obtain ⟨slot, -, hcause⟩ := (build_eq_error_iff h).mp hfault
    cases hcause
  agrees := by
    intro table htable
    obtain ⟨hholds, hbuilt⟩ := holds_of_build h htable
    exact hholds.agrees hbuilt ((build_eq_ok_iff h).mp ⟨table, htable⟩)

/-- **Every table that a registry can be built into looks up, selects and lists one choice for each
slot of the catalog.** -/
theorem tables_answer_alike (summons : Bool) (depth : Depth) :
    ∃ bare standard : Registry depth.storage,
      empty depth.storage depth = .ok bare ∧ withDefaults summons depth.storage depth = .ok standard ∧
      ∀ calls flags, (bare.afterCalls calls).BuildsAgreeing flags ∧
        (standard.afterCalls calls).BuildsAgreeing flags := by
  obtain ⟨bare, hbare, hnothing⟩ := exists_empty depth
  obtain ⟨standard, hstandard, hdefaults⟩ := exists_withDefaults summons depth
  refine ⟨bare, standard, hbare, hstandard, fun calls flags => ⟨?_, ?_⟩⟩
  · exact (hnothing.afterCalls calls).wellSigned.buildsAgreeing flags
  · exact (hdefaults.afterCalls calls).wellSigned.buildsAgreeing flags

end Registry

end PixelKernels
