/-
  PixelKernels.Proofs.DefaultSelection
  ────────────────────────────────────
  **WHICH KERNEL A TABLE OF THE DEFAULTS HOLDS.**

  None of the default registrations is refused, so the candidates of a slot
  are what was registered for it, wide before portable (`withDefaults_eq`).
  Building a table selects for each slot the first candidate that may run, and
  the portable one always may, so a table of the defaults is never missing and
  never incomplete (`buildTable_defaults`).

  A table keeps its functions apart by signature.  `Table.kernelAt` reads them
  by slot; what one installation changes is said in terms of it.
-/
import Mathlib
import PixelKernels.Kernels

namespace PixelKernels

variable {s : Storage}

/-! ## §1. Registrations that are not refused. -/

namespace Registry

/-- Nothing is wrong with a registration, at a registry of this depth. -/
structure Accepts (depth : Depth) (call : Registration s) : Prop where
  signature : call.implementation.kernel.signature = call.slot.kind.signature
  supported : call.slot.supported = true
  depth : call.depth = depth

/-- The registry with the calls inserted, one after another. -/
def insertAll (registry : Registry s) (calls : List (Registration s)) : Registry s :=
  calls.foldl (fun r call => r.insert call.slot call.implementation) registry

theorem register_of_accepts {registry : Registry s} {call : Registration s}
    (h : Accepts registry.depth call) :
    registry.register call = .ok (registry.insert call.slot call.implementation) := by
  have hsize : call.slot.kind.check call.slot.block = .ok () :=
    KernelKind.check_eq_ok_iff.mpr h.supported
  have hexamine : registry.examine call = .ok () := by
    unfold examine
    simp only [h.signature, h.depth, hsize, ne_eq, not_true_eq_false, ite_false]
    rfl
  unfold register
  rw [hexamine]
  rfl

theorem registerAll_of_accepts {calls : List (Registration s)} :
    ∀ registry : Registry s, (∀ call ∈ calls, Accepts registry.depth call) →
      registry.registerAll calls = .ok (registry.insertAll calls) := by
  induction calls with
  | nil => intro registry _; rfl
  | cons call rest ih =>
    intro registry h
    have hrest := ih (registry.insert call.slot call.implementation)
      fun c hc => h c (List.mem_cons_of_mem call hc)
    rw [registerAll, List.foldlM_cons, register_of_accepts (h call List.mem_cons_self)]
    exact hrest

/-- The registrations of at most one implementation for each slot. -/
def callsFor (depth : Depth) (offered : Slot → Option (Implementation s)) (slots : List Slot) :
    List (Registration s) :=
  slots.filterMap fun slot => (offered slot).map fun implementation => ⟨slot, depth, implementation⟩

/-- Each slot of the list gets its implementation, and the others stay as they are. -/
theorem candidates_insertAll_callsFor (depth : Depth) (offered : Slot → Option (Implementation s))
    {slots : List Slot} : slots.Nodup → ∀ (registry : Registry s) (slot : Slot),
      (registry.insertAll (callsFor depth offered slots)).candidates slot
        = if slot ∈ slots then (offered slot).elim (registry.candidates slot)
            fun implementation => insertRanked implementation (registry.candidates slot)
          else registry.candidates slot := by
  -- induction on the slots; no slot comes twice, so the first call of a slot is its only one
  induction slots with
  | nil => intro _ registry slot; rfl
  | cons first rest ih =>
    intro hnodup registry slot
    obtain ⟨hfirst, hrest⟩ := List.nodup_cons.mp hnodup
    cases hoffer : offered first with
    | none =>
      have hcalls : callsFor depth offered (first :: rest) = callsFor depth offered rest := by
        simp [callsFor, hoffer]
      rw [hcalls, ih hrest]
      by_cases hslot : slot = first
      · subst hslot
        rw [if_neg hfirst, if_pos List.mem_cons_self, hoffer]
        rfl
      · simp only [List.mem_cons, hslot, false_or]
    | some implementation =>
      have hcalls : callsFor depth offered (first :: rest)
          = ⟨first, depth, implementation⟩ :: callsFor depth offered rest := by
        simp [callsFor, hoffer]
      rw [hcalls]
      show ((registry.insert first implementation).insertAll _).candidates slot = _
      rw [ih hrest]
      by_cases hslot : slot = first
      · subst hslot
        rw [if_neg hfirst, if_pos List.mem_cons_self, hoffer]
        exact assign_self _ _ _
      · simp only [List.mem_cons, hslot, false_or, insert, assign_of_ne hslot]

theorem insertAll_append (registry : Registry s) (first second : List (Registration s)) :
    registry.insertAll (first ++ second) = (registry.insertAll first).insertAll second :=
  List.foldl_append

@[simp] theorem depth_insertAll (calls : List (Registration s)) :
    ∀ registry : Registry s, (registry.insertAll calls).depth = registry.depth := by
  induction calls with
  | nil => intro registry; rfl
  | cons call rest ih => intro registry; exact ih _

/-! ## §2. The default registry. -/

theorem nodup_catalog : Slot.catalog.Nodup := by decide +kernel

theorem signature_portableKernel (slot : Slot) :
    (portableKernel (s := s) slot).signature = slot.kind.signature := by
  obtain ⟨kind, block⟩ := slot
  cases kind <;> rfl

theorem signature_of_wideKernel? {summons : Bool} {slot : Slot} {kernel : KernelFn s}
    (h : wideKernel? summons slot = some kernel) : kernel.signature = slot.kind.signature := by
  obtain ⟨kind, block⟩ := slot
  unfold wideKernel? at h
  simp only at h
  split at h
  · cases h
  · cases kind with
    | sad | sadBounded | sadX4 | sadAvg => obtain rfl := Option.some.inj h; rfl
    | intra kernel =>
      obtain ⟨run, _, rfl⟩ := Option.map_eq_some_iff.mp h
      rfl

/-- The implementations of a slot that come with the library, the wide one first. -/
def defaults (summons : Bool) (slot : Slot) : List (Implementation s) :=
  (wideImplementation? summons slot).toList ++ [portableImplementation slot]

/-- A wide implementation ranks above the portable one that is already there. -/
theorem insertRanked_wide (summons : Bool) (slot : Slot) :
    (wideImplementation? (s := s) summons slot).elim [portableImplementation slot]
        (fun implementation => insertRanked implementation [portableImplementation slot])
      = (wideImplementation? summons slot).toList ++ [portableImplementation slot] := by
  cases hwide : wideImplementation? (s := s) summons slot with
  | none => rfl
  | some implementation =>
    obtain ⟨kernel, _, rfl⟩ := Option.map_eq_some_iff.mp hwide
    have hrank : CpuFlags.none.preference < CpuFlags.avx2.preference := by decide
    show insertRanked _ [portableImplementation slot] = _
    rw [insertRanked]
    exact if_pos hrank

theorem defaultCalls_eq (summons : Bool) (depth : Depth) :
    defaultCalls summons s depth
      = callsFor depth (fun slot => some (portableImplementation slot)) Slot.catalog
        ++ callsFor depth (wideImplementation? summons) Slot.catalog := by
  rw [defaultCalls, callsFor, callsFor, ← List.filterMap_eq_map]
  rfl

/-- **No default registration is refused, and each slot keeps what was registered for it.** -/
theorem withDefaults_eq (summons : Bool) {depth : Depth} (hdepth : depth.storage = s) :
    ∃ registry, withDefaults summons s depth = .ok registry ∧ registry.depth = depth ∧
      ∀ slot, registry.candidates slot = if slot.supported then defaults summons slot else [] := by
  have hempty : empty s depth = .ok ⟨depth, hdepth, fun _ => []⟩ := dif_pos hdepth
  -- both lists of calls go through the catalog, whose slots are supported
  have haccepts : ∀ call ∈ defaultCalls summons s depth, Accepts depth call := by
    intro call hcall
    rw [defaultCalls, List.mem_append, List.mem_map, List.mem_filterMap] at hcall
    rcases hcall with ⟨slot, hslot, rfl⟩ | ⟨slot, hslot, hoffer⟩
    · exact ⟨signature_portableKernel slot, Slot.mem_catalog.mp hslot, rfl⟩
    · obtain ⟨implementation, hwide, rfl⟩ := Option.map_eq_some_iff.mp hoffer
      obtain ⟨kernel, hkernel, rfl⟩ := Option.map_eq_some_iff.mp hwide
      exact ⟨signature_of_wideKernel? hkernel, Slot.mem_catalog.mp hslot, rfl⟩
  refine
    ⟨(⟨depth, hdepth, fun _ => []⟩ : Registry s).insertAll (defaultCalls summons s depth), ?_, ?_, ?_⟩
  · rw [withDefaults, hempty]
    exact registerAll_of_accepts _ haccepts
  · simp
  · intro slot
    rw [defaultCalls_eq, insertAll_append, candidates_insertAll_callsFor depth _ nodup_catalog,
      candidates_insertAll_callsFor depth _ nodup_catalog]
    simp only [Slot.mem_catalog]
    -- a slot of the catalog gets the portable call first and then the wide one
    by_cases hslot : slot.supported = true
    · rw [if_pos hslot, if_pos hslot, if_pos hslot, defaults]
      exact insertRanked_wide summons slot
    · rw [if_neg hslot, if_neg hslot, if_neg hslot]

/-- The implementation of a slot that a processor selects among the defaults. -/
def choice (processor : Processor) (slot : Slot) : Implementation s :=
  if processor.flags.contains .avx2 then
    (wideImplementation? processor.summons slot).getD (portableImplementation slot)
  else portableImplementation slot

/-- The portable implementation needs nothing, so there is always a choice. -/
theorem find?_defaults (processor : Processor) (slot : Slot) :
    (defaults (s := s) processor.summons slot).find? (·.runsOn processor.flags)
      = some (choice processor slot) := by
  have hportable : (portableImplementation (s := s) slot).runsOn processor.flags = true :=
    CpuFlags.contains_none processor.flags
  unfold defaults choice
  cases hwide : wideImplementation? (s := s) processor.summons slot with
  | none =>
    rw [Option.getD_none, ite_self]
    exact List.find?_cons_of_pos hportable
  | some wide =>
    obtain ⟨kernel, _, rfl⟩ := Option.map_eq_some_iff.mp hwide
    -- the wide candidate stands first, so it is skipped only where it may not run
    by_cases hflags : processor.flags.contains .avx2 = true
    · rw [if_pos hflags]
      exact List.find?_cons_of_pos hflags
    · rw [if_neg hflags]
      have hrefused : ¬ (⟨wideName, .avx2, kernel⟩ : Implementation s).runsOn processor.flags = true :=
        hflags
      refine (List.find?_cons_of_neg (p := (Implementation.runsOn · processor.flags)) hrefused).trans ?_
      exact List.find?_cons_of_pos hportable

theorem signature_choice (processor : Processor) (slot : Slot) :
    (choice (s := s) processor slot).kernel.signature = slot.kind.signature := by
  have hportable := signature_portableKernel (s := s) slot
  unfold choice
  cases hwide : wideImplementation? (s := s) processor.summons slot with
  | none =>
    rw [Option.getD_none, ite_self]
    exact hportable
  | some wide =>
    obtain ⟨kernel, hkernel, rfl⟩ := Option.map_eq_some_iff.mp hwide
    split
    · exact signature_of_wideKernel? hkernel
    · exact hportable

end Registry

/-! ## §3. Tables by slot. -/

namespace Table

/-- The kernel that a table holds for a slot. -/
def kernelAt (table : Table s) (slot : Slot) : Option (KernelFn s) :=
  match slot.kind with
  | .sad => (table.sad slot.block).map .sad
  | .sadBounded => (table.sadBounded slot.block).map .sadBounded
  | .sadX4 => (table.sadX4 slot.block).map .sadX4
  | .sadAvg => (table.sadAvg slot.block).map .sadAvg
  | .intra kernel => (table.intra kernel slot.block).map .intra

/-- A table holds these implementations, each as a function and as a choice. -/
structure Holds (table : Table s) (chosen : Slot → Option (Implementation s)) : Prop where
  kernelAt_eq : ∀ slot, table.kernelAt slot = (chosen slot).map Implementation.kernel
  selected_eq : ∀ slot, table.selected slot = chosen slot

theorem holds_unselected (registry : Registry s) (flags : CpuFlags) :
    (unselected registry flags).Holds fun _ => none where
  kernelAt_eq := by
    rintro ⟨kind, block⟩
    cases kind <;> rfl
  selected_eq := fun _ => rfl

/-- Installing an implementation of the right signature changes its slot and no other. -/
theorem install_of_signature (table : Table s) {slot : Slot} {chosen : Implementation s}
    (h : chosen.kernel.signature = slot.kind.signature) :
    ∃ next, table.install slot chosen = .ok next ∧ next.depth = table.depth ∧
      (∀ u, next.kernelAt u = if u = slot then some chosen.kernel else table.kernelAt u) ∧
      next.selected = assign table.selected slot (some chosen) := by
  obtain ⟨kind, block⟩ := slot
  obtain ⟨name, requires, kernel⟩ := chosen
  -- the signature leaves one kind, and for intra kernels one family of kinds
  cases kernel with
  | sad run | sadBounded run | sadX4 run | sadAvg run =>
    cases kind <;> cases h
    refine ⟨_, rfl, rfl, ?_, rfl⟩
    rintro ⟨kind, size⟩
    cases kind <;> simp only [kernelAt, assign, Slot.mk.injEq, reduceCtorEq, false_and, true_and, ite_false]
    exact apply_ite (Option.map _) _ _ _
  | intra run =>
    obtain ⟨kernel, rfl⟩ : ∃ kernel, kind = .intra kernel := by
      cases kind <;> first | exact ⟨_, rfl⟩ | cases h
    refine ⟨_, rfl, rfl, ?_, rfl⟩
    rintro ⟨kind, size⟩
    cases kind <;> simp only [kernelAt, assign, Slot.mk.injEq, KernelKind.intra.injEq, reduceCtorEq,
      false_and, ite_false]
    next other =>
      by_cases hkernel : other = kernel
      · subst hkernel
        simp only [true_and, ite_true]
        exact apply_ite (Option.map _) _ _ _
      · simp only [hkernel, false_and, ite_false]

/-- One step of building a table keeps what is there and adds the choice of one slot. -/
theorem selectFrom_of_select {registry : Registry s} {flags : CpuFlags} {table : Table s} {slot : Slot}
    {implementation : Implementation s} {chosen : Slot → Option (Implementation s)}
    (hselect : registry.select flags slot = some implementation)
    (hsignature : implementation.kernel.signature = slot.kind.signature) (h : table.Holds chosen) :
    ∃ next, selectFrom registry flags table slot = .ok next ∧ next.depth = table.depth ∧
      next.Holds (assign chosen slot (some implementation)) := by
  obtain ⟨next, hnext, hdepth, hkernel, hselected⟩ := install_of_signature table hsignature
  refine ⟨next, ?_, hdepth, ?_, ?_⟩
  · rw [selectFrom, hselect]
    exact hnext
  · intro u
    rw [hkernel u, h.kernelAt_eq u]
    unfold assign
    split <;> rfl
  · intro u
    rw [hselected]
    unfold assign
    rw [h.selected_eq u]

/-- **A walk that finds a choice for every slot ends with all of them.** -/
theorem foldlM_selectFrom {registry : Registry s} {flags : CpuFlags} {pick : Slot → Implementation s}
    {slots : List Slot} :
    ∀ {table : Table s} {chosen : Slot → Option (Implementation s)}, table.Holds chosen →
      (∀ slot ∈ slots, registry.select flags slot = some (pick slot) ∧
        (pick slot).kernel.signature = slot.kind.signature) →
      ∃ result, slots.foldlM (selectFrom registry flags) table = .ok result ∧
        result.depth = table.depth ∧
        result.Holds fun slot => if slot ∈ slots then some (pick slot) else chosen slot := by
  -- induction on the slots still to be visited, over every table that the walk may have reached
  induction slots with
  | nil =>
    intro table chosen h _
    exact ⟨table, rfl, rfl, by simpa using h⟩
  | cons first rest ih =>
    intro table chosen h hpick
    obtain ⟨hselect, hsignature⟩ := hpick first List.mem_cons_self
    obtain ⟨next, hnext, hdepth, hholds⟩ := selectFrom_of_select hselect hsignature h
    obtain ⟨result, hresult, hsame, hall⟩ :=
      ih hholds fun slot hslot => hpick slot (List.mem_cons_of_mem first hslot)
    refine ⟨result, ?_, hsame.trans hdepth, ?_⟩
    · rw [List.foldlM_cons, hnext, Outcome.ok_bind, hresult]
    · -- the choices of the rest on top of the first choice are the choices of both
      have hchosen : (fun slot => if slot ∈ rest then some (pick slot)
            else assign chosen first (some (pick first)) slot)
          = fun slot => if slot ∈ first :: rest then some (pick slot) else chosen slot := by
        funext slot
        unfold assign
        by_cases hslot : slot = first
        · subst hslot
          simp
        · simp [hslot]
      rwa [hchosen] at hall

end Table

/-! ## §4. Tables of the defaults. -/

/-- What a table of the defaults holds for a slot. -/
def defaultChoice (processor : Processor) (slot : Slot) : Option (Implementation s) :=
  if slot.supported then some (Registry.choice processor slot) else none

/-- **Building a table of the defaults never fails**, and each slot of the catalog holds its choice. -/
theorem buildTable_defaults {depth : Depth} (hdepth : depth.storage = s) (processor : Processor) :
    ∃ table, Kernels.buildTable s depth processor = .ok table ∧ table.depth = depth ∧
      table.Holds (defaultChoice processor) := by
  obtain ⟨registry, hregistry, hregistryDepth, hcandidates⟩ :=
    Registry.withDefaults_eq processor.summons hdepth
  have hpick : ∀ slot ∈ Slot.catalog,
      registry.select processor.flags slot = some (Registry.choice processor slot) ∧
        (Registry.choice (s := s) processor slot).kernel.signature = slot.kind.signature := by
    intro slot hslot
    refine ⟨?_, Registry.signature_choice processor slot⟩
    rw [Registry.select, hcandidates slot, if_pos (Slot.mem_catalog.mp hslot)]
    exact Registry.find?_defaults processor slot
  obtain ⟨table, htable, htableDepth, hholds⟩ :=
    Table.foldlM_selectFrom (Table.holds_unselected registry processor.flags) hpick
  refine ⟨table, ?_, htableDepth.trans hregistryDepth, ?_⟩
  · rw [Kernels.buildTable, hregistry]
    exact htable
  · simp only [Slot.mem_catalog] at hholds
    exact hholds

end PixelKernels
