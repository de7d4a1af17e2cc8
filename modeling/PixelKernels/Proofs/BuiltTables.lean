/-
  PixelKernels.Proofs.BuiltTables
  ───────────────────────────────
  **A TABLE HOLDS THE BEST CANDIDATE OF EVERY SLOT, OR THERE IS NO TABLE.**

  Building walks the catalog and takes from each slot the first candidate
  that may run.  Whether a candidate may run depends on all capabilities that
  it needs, its rank only on the highest of them, so a candidate of high rank
  can be out of reach because of a low capability.  The first one in reach is
  still the best, since a slot holds its candidates by rank and then by age:

    • it is the one of greatest rank among those in reach, and of these the
      first that was registered (`Slot.Records.isBest`);
    • the walk reaches the end exactly if every slot has a candidate in reach,
      and else stops at the first slot without (`build_of_covers`,
      `build_of_firstUncovered`).

  The portable candidates need nothing, so a registry that has grown from the
  defaults can always be built.
-/
import PixelKernels.Proofs.RankedCandidates

namespace PixelKernels

variable {s : Storage}

/-! ## §1. The best of what was registered. -/

/-- The candidate to use of those registered for a slot, on a processor with these capabilities. -/
structure IsBest (flags : CpuFlags) (registered : List (Implementation s))
    (chosen : Implementation s) : Prop where
  available : chosen.runsOn flags = true
  greatest : ∀ c ∈ registered, c.runsOn flags = true → c.preference ≤ chosen.preference
  /-- No candidate that was registered earlier does as well. -/
  earliest : ∃ earlier later, registered = earlier ++ chosen :: later ∧
    ∀ c ∈ earlier, c.runsOn flags = true → c.preference < chosen.preference

/-- **Of ranked candidates the first that is suitable has the greatest rank of those that are.** -/
theorem Ranked.preference_le {candidates : List (Implementation s)} (h : Ranked candidates)
    {suitable : Implementation s → Bool} {chosen c : Implementation s}
    (hchosen : candidates.find? suitable = some chosen) (hc : c ∈ candidates)
    (hsuitable : suitable c = true) : c.preference ≤ chosen.preference := by
  obtain ⟨-, before, after, rfl, hskipped⟩ := List.find?_eq_some_iff_append.mp hchosen
  obtain hc | hc := List.mem_append.mp hc
  · -- those before the chosen one are not suitable
    have hrefused := hskipped c hc
    rw [hsuitable] at hrefused
    cases hrefused
  · have hafter := (List.pairwise_cons.mp (List.pairwise_append.mp h).2.1).1
    obtain rfl | hc := List.mem_cons.mp hc
    · exact Nat.le_refl _
    · exact hafter c hc

/-- **The first candidate of a slot that may run is the best of those registered for it.** -/
theorem Slot.Records.isBest {slot : Slot} {candidates registered : List (Implementation s)}
    (h : slot.Records candidates registered) {flags : CpuFlags} {chosen : Implementation s}
    (hchosen : candidates.find? (·.runsOn flags) = some chosen) : IsBest flags registered chosen := by
  have hgreatest : ∀ c ∈ registered, c.runsOn flags = true → c.preference ≤ chosen.preference :=
    fun c hc => h.ranked.preference_le hchosen (h.complete.mem_iff.mpr hc)
  obtain ⟨havailable, before, after, rfl, hskipped⟩ := List.find?_eq_some_iff_append.mp hchosen
  have hbefore : ∀ c ∈ before, ¬ c.runsOn flags = true := by
    intro c hc
    simpa using hskipped c hc
  refine ⟨havailable, hgreatest, ?_⟩
  -- those of the rank of the chosen one stand in the slot as they were registered
  have haged : ofRank chosen.preference registered
      = ofRank chosen.preference before ++ chosen :: ofRank chosen.preference after := by
    rw [← h.aged, ofRank_append]
    congr 1
    exact List.filter_cons_of_pos (by simp)
  obtain ⟨earlier, rest, rfl, hearlier, hrest⟩ := List.filter_eq_append_iff.mp haged
  obtain ⟨lower, later, rfl, hlower, -, -⟩ := List.filter_eq_cons_iff.mp hrest
  refine ⟨earlier ++ lower, later, by simp, ?_⟩
  intro c hc hruns
  have hle := hgreatest c (by
    rw [← List.append_assoc]
    exact List.mem_append_left _ hc) hruns
  refine Nat.lt_of_le_of_ne hle fun hsame => ?_
  obtain hc | hc := List.mem_append.mp hc
  · -- an earlier one of the same rank stands before the chosen one, where none may run
    have hrank : c ∈ ofRank chosen.preference before := by
      rw [← hearlier]
      exact List.mem_filter.mpr ⟨hc, by simpa using hsame⟩
    exact hbefore c (List.mem_filter.mp hrank).1 hruns
  · exact hlower c hc (by simpa using hsame)

/-! ## §2. The walk through the catalog. -/

namespace Table

/-- A table that belongs to a registry and to these capabilities, whatever is selected in it. -/
structure BuiltFrom (table : Table s) (registry : Registry s) (flags : CpuFlags) : Prop where
  depth : table.depth = registry.depth
  flags : table.flags = flags
  candidates : table.candidates = registry.candidates

theorem builtFrom_unselected (registry : Registry s) (flags : CpuFlags) :
    (unselected registry flags).BuiltFrom registry flags := ⟨rfl, rfl, rfl⟩

variable {registry : Registry s} {flags : CpuFlags} {table next : Table s}

/-- Installing a candidate touches the selection and nothing else. -/
theorem BuiltFrom.install (h : table.BuiltFrom registry flags) {slot : Slot}
    {chosen : Implementation s} (hnext : table.install slot chosen = .ok next) :
    next.BuiltFrom registry flags := by
  simp only [Table.install] at hnext
  -- the arm that fails has no next table, and the others change one function and one choice
  split at hnext <;> cases hnext <;> exact ⟨h.depth, h.flags, h.candidates⟩

theorem BuiltFrom.selectFrom (h : table.BuiltFrom registry flags) {slot : Slot}
    (hnext : selectFrom registry flags table slot = .ok next) : next.BuiltFrom registry flags := by
  unfold Table.selectFrom at hnext
  split at hnext
  · exact h.install hnext
  · cases hnext

/-- **A walk keeps the registry, its depth and the capabilities.** -/
theorem BuiltFrom.foldlM {slots : List Slot} (h : table.BuiltFrom registry flags)
    (hnext : slots.foldlM (Table.selectFrom registry flags) table = .ok next) :
    next.BuiltFrom registry flags := by
  induction slots generalizing table with
  | nil =>
    cases hnext
    exact h
  | cons first rest ih =>
    obtain ⟨between, hfirst, hrest⟩ := Outcome.bind_eq_ok_iff.mp hnext
    exact ih (h.selectFrom hfirst) hrest

end Table

namespace Registry

variable {registry : Registry s} {flags : CpuFlags} {slot : Slot}

/-- A slot has a candidate that may run. -/
def Covers (registry : Registry s) (flags : CpuFlags) (slot : Slot) : Prop :=
  ∃ c ∈ registry.candidates slot, c.runsOn flags = true

theorem covers_iff : registry.Covers flags slot ↔ (registry.select flags slot).isSome = true :=
  List.find?_isSome.symm

theorem select_of_not_covers (h : ¬ registry.Covers flags slot) : registry.select flags slot = none := by
  rwa [covers_iff, Bool.not_eq_true, Option.isSome_eq_false_iff, Option.isNone_iff_eq_none] at h

/-- The first slot of the catalog without a candidate that may run. -/
def FirstUncovered (registry : Registry s) (flags : CpuFlags) (slot : Slot) : Prop :=
  ∃ earlier later, Slot.catalog = earlier ++ slot :: later ∧
    (∀ u ∈ earlier, registry.Covers flags u) ∧ ¬ registry.Covers flags slot

/-- Either the whole catalog is covered or there is a first slot that is not. -/
theorem covers_or_firstUncovered (registry : Registry s) (flags : CpuFlags) :
    (∀ slot ∈ Slot.catalog, registry.Covers flags slot)
      ∨ ∃ slot, registry.FirstUncovered flags slot := by
  cases hfound : Slot.catalog.find? fun slot => !(registry.select flags slot).isSome with
  | none =>
    refine .inl fun slot hslot => covers_iff.mpr ?_
    rw [Option.isSome_iff_ne_none]
    simpa using List.find?_eq_none.mp hfound slot hslot
  | some slot =>
    obtain ⟨hslot, earlier, later, hcatalog, hearlier⟩ := List.find?_eq_some_iff_append.mp hfound
    refine .inr ⟨slot, earlier, later, hcatalog, fun u hu => covers_iff.mpr ?_, fun hcovers => ?_⟩
    · simpa using hearlier u hu
    · rw [covers_iff.mp hcovers] at hslot
      cases hslot

/-- Every candidate has the signature of its slot's kind. -/
def WellSigned (registry : Registry s) : Prop :=
  ∀ slot, ∀ c ∈ registry.candidates slot, c.kernel.signature = slot.kind.signature

theorem Records.wellSigned {history : List (Registration s)} (h : registry.Records history) :
    registry.WellSigned := fun slot => (h slot).signature

theorem signature_of_select (h : registry.WellSigned) {chosen : Implementation s}
    (hchosen : registry.select flags slot = some chosen) :
    chosen.kernel.signature = slot.kind.signature :=
  h slot chosen (List.mem_of_find?_eq_some hchosen)

/-- **A walk through covered slots selects for each of them its first candidate that may run.** -/
theorem foldlM_selectFrom_of_covers (h : registry.WellSigned) {slots : List Slot}
    (hcovers : ∀ slot ∈ slots, registry.Covers flags slot) :
    ∃ table, slots.foldlM (Table.selectFrom registry flags) (Table.unselected registry flags) = .ok table ∧
      table.Holds fun slot => if slot ∈ slots then registry.select flags slot else none := by
  let pick := fun slot => (registry.select flags slot).getD (portableImplementation slot)
  have hpick : ∀ slot ∈ slots, registry.select flags slot = some (pick slot) := by
    intro slot hslot
    obtain ⟨chosen, hchosen⟩ := Option.isSome_iff_exists.mp (covers_iff.mp (hcovers slot hslot))
    show _ = some ((registry.select flags slot).getD _)
    rw [hchosen]
    rfl
  obtain ⟨table, htable, -, hholds⟩ :=
    Table.foldlM_selectFrom (Table.holds_unselected registry flags)
      fun slot hslot => ⟨hpick slot hslot, signature_of_select h (hpick slot hslot)⟩
  have hsame : (fun slot => if slot ∈ slots then some (pick slot) else none)
      = fun slot => if slot ∈ slots then registry.select flags slot else none := by
    funext slot
    split
    · next hslot => exact (hpick slot hslot).symm
    · rfl
  rw [hsame] at hholds
  exact ⟨table, htable, hholds⟩

/-- What a table holds that was built from a registry. -/
def chosen (registry : Registry s) (flags : CpuFlags) (slot : Slot) : Option (Implementation s) :=
  if slot.supported then registry.select flags slot else none

/-- **A registry that covers the catalog can be built.** -/
theorem build_of_covers (h : registry.WellSigned)
    (hcovers : ∀ slot ∈ Slot.catalog, registry.Covers flags slot) :
    ∃ table, registry.build flags = .ok table ∧ table.Holds (registry.chosen flags) := by
  obtain ⟨table, htable, hholds⟩ := foldlM_selectFrom_of_covers h hcovers
  simp only [Slot.mem_catalog] at hholds
  exact ⟨table, htable, hholds⟩

/-- **A registry that leaves a slot uncovered is refused for the first such slot.** -/
theorem build_of_firstUncovered (h : registry.WellSigned) (hslot : registry.FirstUncovered flags slot) :
    registry.build flags
      = .error (.error (.missingImplementation slot.kind slot.block registry.depth)) := by
  obtain ⟨earlier, later, hcatalog, hearlier, huncovered⟩ := hslot
  obtain ⟨reached, hreached, -⟩ := foldlM_selectFrom_of_covers h hearlier
  rw [build, hcatalog, List.foldlM_append, hreached, Outcome.ok_bind, List.foldlM_cons,
    Table.selectFrom, select_of_not_covers huncovered]
  rfl

theorem build_eq_ok_iff (h : registry.WellSigned) :
    (∃ table, registry.build flags = .ok table)
      ↔ ∀ slot ∈ Slot.catalog, registry.Covers flags slot := by
  refine ⟨fun ⟨table, htable⟩ => ?_, fun hcovers => ?_⟩
  · obtain hcovers | ⟨slot, hslot⟩ := covers_or_firstUncovered registry flags
    · exact hcovers
    · rw [build_of_firstUncovered h hslot] at htable
      cases htable
  · obtain ⟨table, htable, -⟩ := build_of_covers h hcovers
    exact ⟨table, htable⟩

theorem build_eq_error_iff (h : registry.WellSigned) {fault : Fault} :
    registry.build flags = .error fault ↔ ∃ slot, registry.FirstUncovered flags slot ∧
      fault = .error (.missingImplementation slot.kind slot.block registry.depth) := by
  refine ⟨fun hfault => ?_, ?_⟩
  · obtain hcovers | ⟨slot, hslot⟩ := covers_or_firstUncovered registry flags
    · obtain ⟨table, htable, -⟩ := build_of_covers h hcovers
      rw [htable] at hfault
      cases hfault
    · rw [build_of_firstUncovered h hslot] at hfault
      exact ⟨slot, hslot, (Except.error.inj hfault).symm⟩
  · rintro ⟨slot, hslot, rfl⟩
    exact build_of_firstUncovered h hslot

/-- A table that was built holds what the registry selects, and belongs to the registry. -/
theorem holds_of_build (h : registry.WellSigned) {table : Table s}
    (htable : registry.build flags = .ok table) :
    table.Holds (registry.chosen flags) ∧ table.BuiltFrom registry flags := by
  obtain ⟨found, hfound, hholds⟩ := build_of_covers h ((build_eq_ok_iff h).mp ⟨table, htable⟩)
  rw [htable] at hfound
  cases hfound
  exact ⟨hholds, (Table.builtFrom_unselected registry flags).foldlM htable⟩

/-! ## §3. The registries that there are. -/

/-- An empty registry has recorded nothing. -/
theorem exists_empty (depth : Depth) :
    ∃ bare : Registry depth.storage, empty depth.storage depth = .ok bare ∧ bare.Records [] :=
  ⟨⟨depth, rfl, fun _ => []⟩, dif_pos rfl, Slot.records_nil⟩

/-- A registry with the defaults has recorded the default calls. -/
theorem exists_withDefaults (summons : Bool) (depth : Depth) :
    ∃ standard : Registry depth.storage, withDefaults summons depth.storage depth = .ok standard ∧
      standard.Records (defaultCalls summons depth.storage depth) := by
  obtain ⟨bare, hbare, hrecords⟩ := exists_empty depth
  obtain ⟨standard, hstandard, -, -⟩ := withDefaults_eq summons (rfl : depth.storage = depth.storage)
  have hcalls : bare.registerAll (defaultCalls summons depth.storage depth) = .ok standard := by
    rw [withDefaults, hbare] at hstandard
    exact hstandard
  obtain ⟨hafter, haccepted⟩ := registerAll_eq_ok hcalls
  refine ⟨standard, hstandard, ?_⟩
  have hall := hrecords.afterCalls (defaultCalls summons depth.storage depth)
  rwa [hafter, haccepted] at hall

/-- How a registry is built, if `made` are the calls that it has accepted. -/
structure BuildsBest (registry : Registry s) (made : List (Registration s)) (flags : CpuFlags) :
    Prop where
  builds : (∃ table, registry.build flags = .ok table)
    ↔ ∀ slot ∈ Slot.catalog, registry.Covers flags slot
  /-- The only refusal names the first slot, in the order of the catalog, that is not covered. -/
  refuses : ∀ fault, registry.build flags = .error fault ↔
    ∃ slot, registry.FirstUncovered flags slot ∧
      fault = .error (.missingImplementation slot.kind slot.block registry.depth)
  selects : ∀ table, registry.build flags = .ok table → ∀ slot ∈ Slot.catalog,
    ∃ chosen, table.selected slot = some chosen ∧ IsBest flags (registeredFor slot made) chosen

theorem Records.buildsBest {made : List (Registration s)} (h : registry.Records made)
    (flags : CpuFlags) : registry.BuildsBest made flags where
  builds := build_eq_ok_iff h.wellSigned
  refuses := fun _ => build_eq_error_iff h.wellSigned
  selects := by
    intro table htable slot hslot
    obtain ⟨hholds, -⟩ := holds_of_build h.wellSigned htable
    have hcovers := (build_eq_ok_iff h.wellSigned).mp ⟨table, htable⟩ slot hslot
    obtain ⟨chosen, hchosen⟩ := Option.isSome_iff_exists.mp (covers_iff.mp hcovers)
    refine ⟨chosen, ?_, (h slot).isBest hchosen⟩
    rw [hholds.selected_eq, Registry.chosen, if_pos (Slot.mem_catalog.mp hslot)]
    exact hchosen

/-- The portable candidates are among those of every registry that has grown from the defaults. -/
theorem covers_of_records_defaults {summons : Bool} {depth : Depth} {later : List (Registration s)}
    (h : registry.Records (defaultCalls summons s depth ++ later)) (flags : CpuFlags)
    (hslot : slot ∈ Slot.catalog) : registry.Covers flags slot := by
  have hcall : (⟨slot, depth, portableImplementation slot⟩ : Registration s)
      ∈ defaultCalls summons s depth ++ later := by
    refine List.mem_append_left _ (List.mem_append_left _ ?_)
    exact List.mem_map.mpr ⟨slot, hslot, rfl⟩
  have hregistered : portableImplementation slot
      ∈ registeredFor slot (defaultCalls summons s depth ++ later) :=
    List.mem_map.mpr ⟨_, List.mem_filter.mpr ⟨hcall, by simp⟩, rfl⟩
  exact ⟨_, (h slot).complete.mem_iff.mpr hregistered, CpuFlags.contains_none flags⟩

/-- **A registry can be built exactly if it covers the catalog, and then each slot holds the best
candidate registered for it; with the defaults it always can.** -/
theorem registries_build_best (summons : Bool) (depth : Depth) :
    ∃ bare standard : Registry depth.storage,
      empty depth.storage depth = .ok bare ∧ withDefaults summons depth.storage depth = .ok standard ∧
      ∀ calls flags,
        (bare.afterCalls calls).BuildsBest (bare.accepted calls) flags ∧
        (standard.afterCalls calls).BuildsBest
          (defaultCalls summons depth.storage depth ++ standard.accepted calls) flags ∧
        ∃ table, (standard.afterCalls calls).build flags = .ok table := by
  obtain ⟨bare, hbare, hnothing⟩ := exists_empty depth
  obtain ⟨standard, hstandard, hdefaults⟩ := exists_withDefaults summons depth
  refine ⟨bare, standard, hbare, hstandard, fun calls flags => ?_⟩
  have hgrown := hdefaults.afterCalls calls
  have hcovers : ∀ slot ∈ Slot.catalog, (standard.afterCalls calls).Covers flags slot :=
    fun slot hslot => covers_of_records_defaults hgrown flags hslot
  exact ⟨(hnothing.afterCalls calls).buildsBest flags, hgrown.buildsBest flags,
    (build_eq_ok_iff hgrown.wellSigned).mpr hcovers⟩

end Registry

end PixelKernels
