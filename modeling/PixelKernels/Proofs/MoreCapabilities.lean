/-
  PixelKernels.Proofs.MoreCapabilities
  ────────────────────────────────────
  **MORE CAPABILITIES NEVER COST A KEY OR A RANK.**

  A candidate may run if its whole set of capabilities is there, and it is
  ranked by the highest of them alone.  So of two sets that include one
  another the larger can have the lower rank among candidates that miss a
  low capability, and that a larger set of capabilities selects no worse
  needs both halves:

    • what may run may still run with more (`Implementation.runsOn_mono`), so
      no slot loses its candidates (`Covers.mono`), and a table that could be
      built can still be built;
    • the candidates of a slot are ranked, and the old choice is among those
      that the new one had to beat (`preference_le_of_select`).

  Where the new choice needs nothing new it was the old one
  (`chosen_eq_of_runsOn`): the candidates before it may not run with more, and
  so not with less.
-/
import PixelKernels.Proofs.TableViews

namespace PixelKernels

variable {s : Storage} {fewer more : CpuFlags}

/-! ## §1. Two sets of capabilities. -/

/-- **What may run with fewer capabilities may run with more.** -/
theorem Implementation.runsOn_mono (h : more.contains fewer = true) {c : Implementation s}
    (hruns : c.runsOn fewer = true) : c.runsOn more = true :=
  CpuFlags.contains_trans h hruns

/-- If the first that meets a condition meets a stronger one, it is the first that does. -/
theorem find?_of_imp {α : Type} {strong weak : α → Bool} (himp : ∀ a, strong a = true → weak a = true)
    {l : List α} {a : α} (hfound : l.find? weak = some a) (ha : strong a = true) :
    l.find? strong = some a := by
  obtain ⟨-, before, after, rfl, hbefore⟩ := List.find?_eq_some_iff_append.mp hfound
  refine List.find?_eq_some_iff_append.mpr ⟨ha, before, after, rfl, fun b hb => ?_⟩
  have hskipped := hbefore b hb
  rw [Bool.not_eq_true'] at hskipped ⊢
  exact Bool.eq_false_iff.mpr fun hstrong => ne_true_of_eq_false hskipped (himp b hstrong)

namespace Registry

variable {registry : Registry s} {slot : Slot}

/-! ## §2. One slot. -/

/-- A slot that has a candidate to run has one with more capabilities. -/
theorem Covers.mono (h : more.contains fewer = true) (hcovers : registry.Covers fewer slot) :
    registry.Covers more slot := by
  obtain ⟨c, hc, hruns⟩ := hcovers
  exact ⟨c, hc, Implementation.runsOn_mono h hruns⟩

/-- **With more capabilities a ranked slot never chooses a lower rank.** -/
theorem preference_le_of_select (hranked : Ranked (registry.candidates slot))
    (h : more.contains fewer = true) {worse better : Implementation s}
    (hworse : registry.select fewer slot = some worse)
    (hbetter : registry.select more slot = some better) : worse.preference ≤ better.preference := by
  have hruns : worse.runsOn fewer = true :=
    List.find?_some (p := (Implementation.runsOn · fewer)) hworse
  exact hranked.preference_le hbetter (List.mem_of_find?_eq_some hworse)
    (Implementation.runsOn_mono h hruns)

theorem select_of_chosen {flags : CpuFlags} {chosen : Implementation s}
    (h : registry.chosen flags slot = some chosen) : registry.select flags slot = some chosen := by
  unfold Registry.chosen at h
  split at h
  · exact h
  · cases h

/-- **A choice that needs none of the additional capabilities is the choice without them.** -/
theorem chosen_eq_of_runsOn (h : more.contains fewer = true) {better : Implementation s}
    (hbetter : registry.chosen more slot = some better) (hruns : better.runsOn fewer = true) :
    registry.chosen fewer slot = some better := by
  unfold Registry.chosen at hbetter ⊢
  split at hbetter
  · next hsupported =>
    rw [if_pos hsupported]
    exact find?_of_imp (fun _ => Implementation.runsOn_mono h) hbetter hruns
  · cases hbetter

end Registry

/-! ## §3. Two tables. -/

/-- What a table keeps and gains in one that was built of the same candidates for more. -/
structure Table.Upgrades (table richer : Table s) (fewer : CpuFlags) : Prop where
  keys : richer.describe.map Prod.fst = table.describe.map Prod.fst
  ranks : ∀ slot ∈ Slot.catalog, ∃ worse better, table.selected slot = some worse ∧
    richer.selected slot = some better ∧ worse.preference ≤ better.preference
  /-- A choice that could be made before was made before, and its function is looked up in both. -/
  keeps : ∀ slot better, richer.selected slot = some better → better.runsOn fewer = true →
    table.selected slot = some better ∧ table.lookup slot = richer.lookup slot

namespace Registry

variable {registry : Registry s}

/-- A table for some capabilities means a table for more, with the same keys and no lower ranks. -/
def Upgrades (registry : Registry s) (fewer more : CpuFlags) : Prop :=
  ∀ table, registry.build fewer = .ok table →
    ∃ richer, registry.build more = .ok richer ∧ table.Upgrades richer fewer

/-- **A registry that records calls upgrades its tables.** -/
theorem Records.upgrades {made : List (Registration s)} (h : registry.Records made)
    (hmore : more.contains fewer = true) : registry.Upgrades fewer more := by
  intro table htable
  have hcovers := (build_eq_ok_iff h.wellSigned).mp ⟨table, htable⟩
  obtain ⟨richer, hricher⟩ : ∃ richer, registry.build more = .ok richer :=
    (build_eq_ok_iff h.wellSigned).mpr fun slot hslot => (hcovers slot hslot).mono hmore
  obtain ⟨hholds, -⟩ := holds_of_build h.wellSigned htable
  obtain ⟨hricherHolds, -⟩ := holds_of_build h.wellSigned hricher
  have hagrees := (h.wellSigned.buildsAgreeing fewer).agrees table htable
  have hricherAgrees := (h.wellSigned.buildsAgreeing more).agrees richer hricher
  refine ⟨richer, hricher, ?_, ?_, ?_⟩
  · rw [hricherAgrees.keys, hagrees.keys]
  · intro slot hslot
    obtain ⟨worse, -, hworse, -⟩ := hagrees.supported slot (Slot.mem_catalog.mp hslot)
    obtain ⟨better, -, hbetter, -⟩ := hricherAgrees.supported slot (Slot.mem_catalog.mp hslot)
    refine ⟨worse, better, hworse, hbetter, ?_⟩
    rw [hholds.selected_eq] at hworse
    rw [hricherHolds.selected_eq] at hbetter
    exact preference_le_of_select (h slot).ranked hmore (select_of_chosen hworse)
      (select_of_chosen hbetter)
  · intro slot better hbetter hruns
    rw [hricherHolds.selected_eq] at hbetter
    have hsame := chosen_eq_of_runsOn hmore hbetter hruns
    refine ⟨?_, ?_⟩
    · rw [hholds.selected_eq, hsame]
    · rw [Table.lookup_eq, Table.lookup_eq, hholds.kernelAt_eq, hricherHolds.kernelAt_eq, hsame, hbetter]

/-! ## §4. The registries that there are. -/

/-- **After any calls, more capabilities keep every key and lower no rank**, and a kernel that needs
none of them is selected with and without them. -/
theorem more_capabilities_upgrade_tables (summons : Bool) (depth : Depth) :
    ∃ bare standard : Registry depth.storage,
      empty depth.storage depth = .ok bare ∧ withDefaults summons depth.storage depth = .ok standard ∧
      ∀ calls fewer more, more.contains fewer = true →
        (bare.afterCalls calls).Upgrades fewer more ∧
        (standard.afterCalls calls).Upgrades fewer more := by
  obtain ⟨bare, hbare, hnothing⟩ := exists_empty depth
  obtain ⟨standard, hstandard, hdefaults⟩ := exists_withDefaults summons depth
  refine ⟨bare, standard, hbare, hstandard, fun calls fewer more hmore => ⟨?_, ?_⟩⟩
  · exact (hnothing.afterCalls calls).upgrades hmore
  · exact (hdefaults.afterCalls calls).upgrades hmore

/-- A candidate of the highest rank that also needs the lowest capability, and one between it and the
portable one. -/
def steppedCalls : List (Registration Depth.ten.storage) :=
  let slot : Slot := ⟨.sad, .b4x4⟩
  [⟨slot, .ten, ⟨"stepped", CpuFlags.avx512.union .sse2, portableKernel slot⟩⟩,
    ⟨slot, .ten, ⟨"shuffled", CpuFlags.sse41.union .ssse3, portableKernel slot⟩⟩]

/-- What is selected for the slot of these calls. -/
def steppedName (flags : CpuFlags) : Option (Option String) :=
  (withDefaults true Depth.ten.storage .ten).toOption.bind fun standard =>
    ((standard.afterCalls steppedCalls).build flags).toOption.map fun table =>
      (table.selected ⟨.sad, .b4x4⟩).map Implementation.name

theorem exists_of_steppedName {standard : Registry Depth.ten.storage} {flags : CpuFlags}
    {name : Option String} (hstandard : withDefaults true Depth.ten.storage .ten = .ok standard)
    (hname : steppedName flags = some name) :
    ∃ table, (standard.afterCalls steppedCalls).build flags = .ok table ∧
      (table.selected ⟨.sad, .b4x4⟩).map Implementation.name = name := by
  unfold steppedName at hname
  rw [hstandard] at hname
  obtain ⟨table, htable, hselected⟩ := Option.map_eq_some_iff.mp hname
  refine ⟨table, ?_, hselected⟩
  cases hbuild : (standard.afterCalls steppedCalls).build flags with
  | error fault =>
    rw [hbuild] at htable
    cases htable
  | ok built =>
    rw [hbuild] at htable
    cases htable
    rfl

/-- Everything but the lowest capability is not enough for the candidate of the highest rank. -/
theorem upgrades_of_steppedCalls :
    ∃ standard table richer,
      withDefaults true Depth.ten.storage .ten = .ok standard ∧
      (standard.afterCalls steppedCalls).build (CpuFlags.truncate 30) = .ok table ∧
      (standard.afterCalls steppedCalls).build .all = .ok richer ∧
      table.Upgrades richer (CpuFlags.truncate 30) ∧
      (table.selected ⟨.sad, .b4x4⟩).map Implementation.name = some "shuffled" ∧
      (richer.selected ⟨.sad, .b4x4⟩).map Implementation.name = some "stepped" := by
  obtain ⟨_, standard, -, hstandard, hupgrades⟩ := more_capabilities_upgrade_tables true .ten
  obtain ⟨table, htable, hshuffled⟩ := exists_of_steppedName hstandard
    (show steppedName (CpuFlags.truncate 30) = some (some "shuffled") by decide +kernel)
  obtain ⟨built, hbuilt, hstepped⟩ := exists_of_steppedName hstandard
    (show steppedName .all = some (some "stepped") by decide +kernel)
  have hmore : CpuFlags.all.contains (CpuFlags.truncate 30) = true := by decide
  obtain ⟨richer, hricher, hgains⟩ := (hupgrades steppedCalls _ _ hmore).2 table htable
  rw [hbuilt] at hricher
  cases hricher
  exact ⟨standard, table, built, hstandard, htable, hbuilt, hgains, hshuffled, hstepped⟩

end Registry

end PixelKernels
