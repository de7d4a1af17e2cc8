/-
  PixelKernels.Proofs.RankedCandidates
  ────────────────────────────────────
  **A REGISTRY HOLDS WHAT IT ACCEPTED, RANKED.**

  A candidate is put in front of the first one that ranks below it.  That is
  its place only if the candidates are ranked already, so their order is an
  invariant that every call needs and keeps (`ranked_insertRanked`); and only
  then do the candidates of one rank stay in the order in which they came
  (`ofRank_insertRanked`).

    • `Registry.Records` says that the slots of a registry hold the calls of a
      history, each its own, once, ranked.  An accepted call adds itself to
      the history (`Records.insert`), so by induction on the calls every
      registry records what it accepted (`Records.afterCalls`).
    • A call is refused for the first of three reasons that applies
      (`register_eq_error_iff`).
    • `Registry.flat` is the registry as one list of 14 times 13 entries.  A
      slot has the entry `Slot.index`, and no two slots share one, so an
      accepted call changes that entry only (`flat_insert`).
-/
import PixelKernels.Proofs.DefaultSelection

namespace PixelKernels

variable {s : Storage}

/-! ## §1. Inserting by rank. -/

/-- No candidate ranks above one that stands before it. -/
def Ranked (candidates : List (Implementation s)) : Prop :=
  candidates.Pairwise fun earlier later => later.preference ≤ earlier.preference

/-- The candidates of one rank, as they stand. -/
def ofRank (rank : Nat) (candidates : List (Implementation s)) : List (Implementation s) :=
  candidates.filter fun c => c.preference = rank

theorem ofRank_append (rank : Nat) (first second : List (Implementation s)) :
    ofRank rank (first ++ second) = ofRank rank first ++ ofRank rank second :=
  List.filter_append ..

section Inserting

variable {candidate : Implementation s} {candidates : List (Implementation s)}

/-- The place of a candidate is the first position that ranks below it, or the end. -/
theorem insertRanked_eq_insertIdx (candidate : Implementation s) (candidates : List (Implementation s)) :
    insertRanked candidate candidates
      = candidates.insertIdx (candidates.findIdx fun c => c.preference < candidate.preference)
          candidate := by
  induction candidates with
  | nil => rfl
  | cons c rest ih =>
    rw [insertRanked, List.findIdx_cons]
    by_cases hrank : c.preference < candidate.preference
    · simp [hrank]
    · simp [hrank, ih]

/-- **Ranked candidates stay ranked.** -/
theorem ranked_insertRanked (h : Ranked candidates) : Ranked (insertRanked candidate candidates) := by
  induction candidates with
  | nil => exact List.pairwise_singleton _ _
  | cons c rest ih =>
    obtain ⟨hfirst, hrest⟩ := List.pairwise_cons.mp h
    rw [insertRanked]
    by_cases hrank : c.preference < candidate.preference
    · rw [if_pos hrank]
      refine List.pairwise_cons.mpr ⟨?_, h⟩
      intro d hd
      obtain rfl | hd := List.mem_cons.mp hd
      · omega
      · have := hfirst d hd
        omega
    · rw [if_neg hrank]
      refine List.pairwise_cons.mpr ⟨?_, ih hrest⟩
      intro d hd
      obtain rfl | hd := mem_insertRanked.mp hd
      · omega
      · exact hfirst d hd

/-- **Among ranked candidates the new one comes last of its rank**, and the others stay as they are. -/
theorem ofRank_insertRanked (h : Ranked candidates) (rank : Nat) :
    ofRank rank (insertRanked candidate candidates) = ofRank rank (candidates ++ [candidate]) := by
  induction candidates with
  | nil => rfl
  | cons c rest ih =>
    obtain ⟨hfirst, hrest⟩ := List.pairwise_cons.mp h
    rw [insertRanked]
    by_cases hrank : c.preference < candidate.preference
    · rw [if_pos hrank]
      show ofRank rank ([candidate] ++ c :: rest) = ofRank rank (c :: rest ++ [candidate])
      rw [ofRank_append, ofRank_append]
      by_cases hsame : candidate.preference = rank
      · -- all that follow rank below the new one
        have hnone : ofRank rank (c :: rest) = [] := by
          refine List.filter_eq_nil_iff.mpr fun d hd => ?_
          have hle : d.preference ≤ c.preference := by
            obtain rfl | hd := List.mem_cons.mp hd
            · exact Nat.le_refl _
            · exact hfirst d hd
          simp only [decide_eq_true_eq]
          omega
        rw [hnone, List.nil_append, List.append_nil]
      · have hother : ofRank rank [candidate] = [] := List.filter_cons_of_neg (by simpa using hsame)
        rw [hother, List.nil_append, List.append_nil]
    · rw [if_neg hrank]
      show ofRank rank ([c] ++ insertRanked candidate rest) = ofRank rank ([c] ++ (rest ++ [candidate]))
      rw [ofRank_append, ofRank_append, ih hrest]

end Inserting

/-! ## §2. What a registry records. -/

/-- A slot holds what was registered for it, each candidate once, by rank and then by age. -/
structure Slot.Records (slot : Slot) (candidates registered : List (Implementation s)) : Prop where
  ranked : Ranked candidates
  aged : ∀ rank, ofRank rank candidates = ofRank rank registered
  /-- None is missing, none is there twice, and no other is there. -/
  complete : candidates.Perm registered
  signature : ∀ c ∈ candidates, c.kernel.signature = slot.kind.signature
  supported : candidates ≠ [] → slot.supported = true

theorem Slot.records_nil (slot : Slot) : slot.Records (s := s) [] [] where
  ranked := .nil
  aged := fun _ => rfl
  complete := .nil
  signature := fun c hc => by cases hc
  supported := fun hsome => absurd rfl hsome

/-- **A slot records one more candidate of its signature.** -/
theorem Slot.Records.insert {slot : Slot} {candidates registered : List (Implementation s)}
    (h : slot.Records candidates registered) {candidate : Implementation s}
    (hsignature : candidate.kernel.signature = slot.kind.signature)
    (hsupported : slot.supported = true) :
    slot.Records (insertRanked candidate candidates) (registered ++ [candidate]) where
  ranked := ranked_insertRanked h.ranked
  aged := by
    intro rank
    rw [ofRank_insertRanked h.ranked, ofRank_append, ofRank_append, h.aged]
  complete := by
    calc List.Perm (insertRanked candidate candidates) (candidate :: candidates) :=
          insertRanked_perm candidate candidates
      List.Perm _ (candidate :: registered) := h.complete.cons candidate
      List.Perm _ (registered ++ [candidate]) := (List.perm_append_singleton _ _).symm
  signature := by
    intro c hc
    obtain rfl | hc := mem_insertRanked.mp hc
    · exact hsignature
    · exact h.signature c hc
  supported := fun _ => hsupported

namespace Registry

/-- What was registered for a slot, in the order of the calls. -/
def registeredFor (slot : Slot) (history : List (Registration s)) : List (Implementation s) :=
  (history.filter fun call => call.slot = slot).map Registration.implementation

/-- Every slot holds what was registered for it, and nothing else. -/
def Records (registry : Registry s) (history : List (Registration s)) : Prop :=
  ∀ slot : Slot, slot.Records (registry.candidates slot) (registeredFor slot history)

variable {registry : Registry s} {history : List (Registration s)} {call : Registration s}

theorem registeredFor_concat_self (history : List (Registration s)) (call : Registration s) :
    registeredFor call.slot (history ++ [call])
      = registeredFor call.slot history ++ [call.implementation] := by
  simp [registeredFor]

theorem registeredFor_concat_of_ne {slot : Slot} (hslot : slot ≠ call.slot) :
    registeredFor slot (history ++ [call]) = registeredFor slot history := by
  simp [registeredFor, Ne.symm hslot]

/-- **A registry records one more call once it has accepted it.** -/
theorem Records.insert (h : registry.Records history) (hcall : Accepts registry.depth call) :
    (registry.insert call.slot call.implementation).Records (history ++ [call]) := by
  intro slot
  obtain rfl | hslot := eq_or_ne slot call.slot
  · have hhere : (registry.insert call.slot call.implementation).candidates call.slot
        = insertRanked call.implementation (registry.candidates call.slot) := assign_self ..
    rw [hhere, registeredFor_concat_self]
    exact (h call.slot).insert hcall.signature hcall.supported
  · -- the other slots are as before
    have hthere : (registry.insert call.slot call.implementation).candidates slot
        = registry.candidates slot := assign_of_ne hslot
    rw [hthere, registeredFor_concat_of_ne hslot]
    exact h slot

/-! ## §3. Accepted and refused calls. -/

/-- Why a call is refused at a registry of this depth: the first of three reasons. -/
inductive RefusedFor (depth : Depth) (call : Registration s) : Error → Prop
  /-- The function has another signature than the kind. -/
  | kindMismatch (h : call.implementation.kernel.signature ≠ call.slot.kind.signature) :
      RefusedFor depth call
        (.kindMismatch call.slot.kind call.implementation.kernel.signature.name)
  /-- The signature is right, and the size is not one of the kind's. -/
  | unsupportedGeometry (hsignature : call.implementation.kernel.signature = call.slot.kind.signature)
      (h : call.slot.supported = false) :
      RefusedFor depth call (.unsupportedGeometry call.slot.kind call.slot.block)
  /-- Signature and size are right, and the depth is another one. -/
  | storageMismatch (hsignature : call.implementation.kernel.signature = call.slot.kind.signature)
      (hsupported : call.slot.supported = true) (h : call.depth ≠ depth) :
      RefusedFor depth call (.storageMismatch call.depth)

theorem register_of_refusedFor {cause : Error} (h : RefusedFor registry.depth call cause) :
    registry.register call = .error cause := by
  cases h with
  | kindMismatch h =>
    simp [register, examine, h, bind, Except.bind, throw, throwThe, MonadExceptOf.throw]
  | unsupportedGeometry hsignature h =>
    have hcheck : call.slot.kind.check call.slot.block
        = .error (.unsupportedGeometry call.slot.kind call.slot.block) := by
      unfold KernelKind.check
      exact if_neg (ne_true_of_eq_false h)
    simp [register, examine, hsignature, hcheck, bind, Except.bind]
  | storageMismatch hsignature hsupported h =>
    have hcheck : call.slot.kind.check call.slot.block = .ok () :=
      KernelKind.check_eq_ok_iff.mpr hsupported
    simp [register, examine, hsignature, hcheck, h, bind, Except.bind, throw, throwThe,
      MonadExceptOf.throw]

/-- A call is accepted, or there is a first reason against it. -/
theorem accepts_or_refusedFor (depth : Depth) (call : Registration s) :
    Accepts depth call ∨ ∃ cause, RefusedFor depth call cause := by
  by_cases hsignature : call.implementation.kernel.signature = call.slot.kind.signature
  · cases hsupported : call.slot.supported with
    | false => exact .inr ⟨_, .unsupportedGeometry hsignature hsupported⟩
    | true =>
      by_cases hdepth : call.depth = depth
      · exact .inl ⟨hsignature, hsupported, hdepth⟩
      · exact .inr ⟨_, .storageMismatch hsignature hsupported hdepth⟩
  · exact .inr ⟨_, .kindMismatch hsignature⟩

/-- **A call is refused for the first reason that applies, and for no other.** -/
theorem register_eq_error_iff {cause : Error} :
    registry.register call = .error cause ↔ RefusedFor registry.depth call cause := by
  refine ⟨fun hrefused => ?_, register_of_refusedFor⟩
  obtain haccepts | ⟨found, hfound⟩ := accepts_or_refusedFor registry.depth call
  · rw [register_of_accepts haccepts] at hrefused
    cases hrefused
  · rw [register_of_refusedFor hfound] at hrefused
    cases hrefused
    exact hfound

/-- **A call that is not refused inserts its implementation into its slot.** -/
theorem register_eq_ok_iff {next : Registry s} :
    registry.register call = .ok next
      ↔ Accepts registry.depth call ∧ registry.insert call.slot call.implementation = next := by
  obtain haccepts | ⟨found, hfound⟩ := accepts_or_refusedFor registry.depth call
  · rw [register_of_accepts haccepts, Except.ok.injEq, and_iff_right haccepts]
  · rw [register_of_refusedFor hfound]
    refine iff_of_false (by simp) fun ⟨haccepts, _⟩ => ?_
    rw [← register_eq_error_iff, register_of_accepts haccepts] at hfound
    cases hfound

/-- The calls of a sequence that are not refused. -/
def accepted (registry : Registry s) : List (Registration s) → List (Registration s)
  | [] => []
  | call :: rest =>
      match registry.register call with
      | .ok next => call :: next.accepted rest
      | .error _ => registry.accepted rest

theorem afterCalls_append (registry : Registry s) (first second : List (Registration s)) :
    registry.afterCalls (first ++ second) = (registry.afterCalls first).afterCalls second :=
  List.foldl_append

theorem afterCalls_cons_of_ok {next : Registry s} (h : registry.register call = .ok next)
    (rest : List (Registration s)) : registry.afterCalls (call :: rest) = next.afterCalls rest := by
  rw [afterCalls, List.foldl_cons, h]
  rfl

theorem afterCalls_cons_of_error {cause : Error} (h : registry.register call = .error cause)
    (rest : List (Registration s)) :
    registry.afterCalls (call :: rest) = registry.afterCalls rest := by
  rw [afterCalls, List.foldl_cons, h]
  rfl

theorem depth_afterCalls (registry : Registry s) (calls : List (Registration s)) :
    (registry.afterCalls calls).depth = registry.depth := by
  induction calls generalizing registry with
  | nil => rfl
  | cons call rest ih =>
    cases hregister : registry.register call with
    | error cause =>
      rw [afterCalls_cons_of_error hregister]
      exact ih registry
    | ok next =>
      obtain ⟨-, rfl⟩ := register_eq_ok_iff.mp hregister
      rw [afterCalls_cons_of_ok hregister]
      exact ih _

/-- **A registry that records a history goes on to record what it accepts.** -/
theorem Records.afterCalls (h : registry.Records history) (calls : List (Registration s)) :
    (registry.afterCalls calls).Records (history ++ registry.accepted calls) := by
  -- induction on the calls, over every registry and history that they may find
  induction calls generalizing registry history with
  | nil =>
    rw [accepted, List.append_nil]
    exact h
  | cons call rest ih =>
    cases hregister : registry.register call with
    | error cause =>
      rw [afterCalls_cons_of_error hregister]
      simp only [accepted, hregister]
      exact ih h
    | ok next =>
      obtain ⟨haccepts, rfl⟩ := register_eq_ok_iff.mp hregister
      rw [afterCalls_cons_of_ok hregister]
      simp only [accepted, hregister]
      rw [List.append_cons]
      exact ih (h.insert haccepts)

end Registry

/-! ## §4. The registry as one list. -/

/-- **Over keys that are numbered by their place, changing a function at a key changes one entry of
the list of its values.** -/
theorem map_assign {κ α : Type} [DecidableEq κ] {keys : List κ} {number : κ → Nat}
    (hnodup : keys.Nodup) (hplace : ∀ key, keys[number key]? = some key) (f : κ → α) (key : κ)
    (value : α) : keys.map (assign f key value) = (keys.map f).set (number key) value := by
  obtain ⟨hlt, hkey⟩ := List.getElem?_eq_some_iff.mp (hplace key)
  refine List.ext_getElem (by simp) fun i hi _ => ?_
  rw [List.length_map] at hi
  rw [List.getElem_map, List.getElem_set]
  by_cases hnumber : number key = i
  · subst hnumber
    rw [if_pos rfl, hkey, assign_self]
  · -- no key comes twice, so at another place there is another key
    have hne : keys[i] ≠ key := fun heq =>
      hnumber (hnodup.getElem_inj_iff.mp (hkey.trans heq.symm))
    rw [if_neg hnumber, List.getElem_map, assign_of_ne hne]

/-- Position of a kind in the catalog. -/
def KernelKind.rank : KernelKind → Nat
  | .sad => 0
  | .sadBounded => 1
  | .sadX4 => 2
  | .sadAvg => 3
  | .intra kernel => 4 + IntraKernel.all.idxOf kernel

namespace Slot

/-- Number of a slot among all kinds at all sizes, supported or not. -/
def index (slot : Slot) : Nat := slot.kind.rank * BlockSize.all.length + slot.block.rank

/-- All kinds at all sizes. -/
def grid : List Slot :=
  KernelKind.all.flatMap fun kind => BlockSize.all.map fun block => ⟨kind, block⟩

theorem mem_grid (slot : Slot) : slot ∈ grid := by
  simp [grid, KernelKind.mem_all, BlockSize.mem_all]

/-- **The numbers of the slots are those of the entries, each once.** -/
theorem map_index_grid : grid.map index = List.range (14 * 13) := by decide +kernel

theorem nodup_grid : grid.Nodup := by
  refine List.Nodup.of_map index ?_
  rw [map_index_grid]
  exact List.nodup_range

theorem index_of_getElem?_grid {slot : Slot} {i : Nat} (h : grid[i]? = some slot) :
    slot.index = i := by
  have hindex : (grid.map index)[i]? = some slot.index := by rw [List.getElem?_map, h]; rfl
  rw [map_index_grid] at hindex
  obtain ⟨_, hnumber⟩ := List.getElem?_eq_some_iff.mp hindex
  rw [List.getElem_range] at hnumber
  exact hnumber.symm

theorem getElem?_grid_index (slot : Slot) : grid[slot.index]? = some slot := by
  obtain ⟨i, hi⟩ := List.mem_iff_getElem?.mp (mem_grid slot)
  rw [index_of_getElem?_grid hi, hi]

end Slot

namespace Registry

/-- The candidates of all slots, by number. -/
def flat (registry : Registry s) : List (List (Implementation s)) :=
  Slot.grid.map registry.candidates

theorem getElem?_flat_index (registry : Registry s) (slot : Slot) :
    registry.flat[slot.index]? = some (registry.candidates slot) := by
  rw [flat, List.getElem?_map, Slot.getElem?_grid_index]
  rfl

/-- **Inserting changes the entry of the slot and no other.** -/
theorem flat_insert (registry : Registry s) (slot : Slot) (implementation : Implementation s) :
    (registry.insert slot implementation).flat = registry.flat.set slot.index
      (insertRanked implementation (registry.candidates slot)) :=
  map_assign Slot.nodup_grid Slot.getElem?_grid_index _ _ _

end Registry

/-! ## §5. The registries that there are. -/

namespace Registry

/-- What holds of a registry whatever calls are made on it, if `made` are the calls that it has
accepted before. -/
structure KeepsRecord (registry : Registry s) (made : List (Registration s)) : Prop where
  records : ∀ calls, (registry.afterCalls calls).Records (made ++ registry.accepted calls)
  /-- The entry of a slot is its list of candidates. -/
  entries : ∀ calls slot, (registry.afterCalls calls).flat[slot.index]?
    = some ((registry.afterCalls calls).candidates slot)
  /-- An accepted call has nothing against it, and changes one entry: there its implementation goes in
  front of the first candidate that ranks below it, or to the end. -/
  accepts : ∀ calls call next, (registry.afterCalls calls).register call = .ok next →
    Accepts registry.depth call ∧ registry.afterCalls (calls ++ [call]) = next ∧
      next.flat = (registry.afterCalls calls).flat.set call.slot.index
        (((registry.afterCalls calls).candidates call.slot).insertIdx
          (((registry.afterCalls calls).candidates call.slot).findIdx fun c =>
            c.preference < call.implementation.preference) call.implementation)
  /-- A call is refused exactly for the first reason that applies. -/
  refuses : ∀ calls call cause, (registry.afterCalls calls).register call = .error cause
    ↔ RefusedFor registry.depth call cause
  unchanged : ∀ calls call cause, (registry.afterCalls calls).register call = .error cause →
    registry.afterCalls (calls ++ [call]) = registry.afterCalls calls

theorem keepsRecord_of_records {registry : Registry s} {made : List (Registration s)}
    (h : registry.Records made) : registry.KeepsRecord made where
  records := fun calls => h.afterCalls calls
  entries := fun calls slot => getElem?_flat_index (registry.afterCalls calls) slot
  accepts := by
    intro calls call next hregister
    obtain ⟨haccepts, rfl⟩ := register_eq_ok_iff.mp hregister
    rw [depth_afterCalls] at haccepts
    refine ⟨haccepts, ?_, ?_⟩
    · rw [afterCalls_append, afterCalls_cons_of_ok hregister]
      rfl
    · rw [flat_insert, insertRanked_eq_insertIdx]
  refuses := by
    intro calls call cause
    rw [register_eq_error_iff, depth_afterCalls]
  unchanged := by
    intro calls call cause hregister
    rw [afterCalls_append, afterCalls_cons_of_error hregister]
    rfl

/-- Calls of which none was refused are all accepted. -/
theorem registerAll_eq_ok {calls : List (Registration s)} :
    ∀ {registry last : Registry s}, registry.registerAll calls = .ok last →
      registry.afterCalls calls = last ∧ registry.accepted calls = calls := by
  induction calls with
  | nil =>
    intro registry last h
    exact ⟨Except.ok.inj h, rfl⟩
  | cons call rest ih =>
    intro registry last h
    rw [registerAll, List.foldlM_cons] at h
    cases hregister : registry.register call with
    | error cause =>
      rw [hregister] at h
      cases h
    | ok next =>
      rw [hregister] at h
      obtain ⟨hlast, hall⟩ := ih h
      rw [afterCalls_cons_of_ok hregister]
      refine ⟨hlast, ?_⟩
      simp only [accepted, hregister, hall]

/-- **A registry, empty or with the defaults, holds what it accepted, ranked, and refuses the rest.** -/
theorem registries_keep_record (summons : Bool) (depth : Depth) :
    ∃ bare standard : Registry depth.storage,
      (empty depth.storage depth = .ok bare ∧ bare.depth = depth ∧ bare.KeepsRecord []) ∧
      withDefaults summons depth.storage depth = .ok standard ∧ standard.depth = depth ∧
        standard.KeepsRecord (defaultCalls summons depth.storage depth) := by
  let bare : Registry depth.storage := ⟨depth, rfl, fun _ => []⟩
  have hbare : empty depth.storage depth = .ok bare := dif_pos rfl
  have hrecords : bare.Records [] := Slot.records_nil
  obtain ⟨standard, hstandard, hdepth, _⟩ := withDefaults_eq summons (rfl : depth.storage = depth.storage)
  have hdefaults : bare.registerAll (defaultCalls summons depth.storage depth) = .ok standard := by
    rw [withDefaults, hbare] at hstandard
    exact hstandard
  obtain ⟨hafter, haccepted⟩ := registerAll_eq_ok hdefaults
  have hall := hrecords.afterCalls (defaultCalls summons depth.storage depth)
  rw [hafter, haccepted, List.nil_append] at hall
  exact ⟨bare, standard, ⟨hbare, rfl, keepsRecord_of_records hrecords⟩, hstandard, hdepth,
    keepsRecord_of_records hall⟩

end Registry

end PixelKernels
