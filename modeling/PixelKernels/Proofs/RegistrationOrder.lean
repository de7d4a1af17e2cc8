/-
  PixelKernels.Proofs.RegistrationOrder
  ─────────────────────────────────────
  **THE ORDER OF REGISTRATIONS BREAKS TIES AND DOES NOTHING ELSE.**

  Calls on different slots do not meet, and a refused call does nothing.  On
  one slot two candidates of different rank go to the same places in either
  order, whether or not the slot is ranked (`insertRanked_comm`); two of the
  same rank do not.  What this leaves of the order in which candidates come is
  one list for each rank:

    • a candidate may be moved in front of any others of other ranks
      (`insertEach_middle`), so sequences that agree rank by rank end with the
      same slot (`insertEach_congr`);
    • which calls are refused depends on the depth of the registry and not on
      what was registered before (`accepted_eq_filter`);
    • a slot after any calls is the slot before with the accepted candidates
      inserted one after another (`candidates_afterCalls`).

  On a slot that is ranked the converse holds as well: it still shows, rank by
  rank, the order in which it was filled (`Records.reorders_iff`).
-/
import PixelKernels.Proofs.RankedCandidates

namespace PixelKernels

variable {s : Storage}

/-! ## §1. Exchanging two insertions. -/

/-- **Candidates of different rank go to the same places in either order.** -/
theorem insertRanked_comm {a b : Implementation s} (h : a.preference ≠ b.preference)
    (candidates : List (Implementation s)) :
    insertRanked a (insertRanked b candidates) = insertRanked b (insertRanked a candidates) := by
  -- the order of the two does not matter, so let `b` be the one of lower rank
  wlog hlt : b.preference < a.preference generalizing a b
  · exact (this h.symm (by omega)).symm
  have hnot : ¬ a.preference < b.preference := by omega
  induction candidates with
  | nil => simp only [insertRanked, if_pos hlt, if_neg hnot]
  | cons c rest ih =>
    by_cases hb : c.preference < b.preference
    · have ha : c.preference < a.preference := hb.trans hlt
      simp only [insertRanked, if_pos ha, if_pos hb, if_pos hlt, if_neg hnot]
    · by_cases ha : c.preference < a.preference
      · simp only [insertRanked, if_pos ha, if_neg hb, if_neg hnot]
      · simp only [insertRanked, if_neg ha, if_neg hb, ih]

/-- A slot with candidates inserted, one after another. -/
def insertEach (candidates new : List (Implementation s)) : List (Implementation s) :=
  new.foldl (fun slot c => insertRanked c slot) candidates

/-- **A candidate may be inserted before any others of other ranks.** -/
theorem insertEach_middle {c : Implementation s} {before : List (Implementation s)}
    (h : ∀ b ∈ before, b.preference ≠ c.preference) (after candidates : List (Implementation s)) :
    insertEach candidates (before ++ c :: after) = insertEach candidates (c :: (before ++ after)) := by
  -- induction on those to be passed, over every slot that they may have reached
  induction before generalizing candidates with
  | nil => rfl
  | cons b rest ih =>
    have hb : b.preference ≠ c.preference := h b List.mem_cons_self
    have hrest := ih (fun d hd => h d (List.mem_cons_of_mem b hd)) (insertRanked b candidates)
    show insertEach (insertRanked b candidates) (rest ++ c :: after)
      = insertEach (insertRanked b (insertRanked c candidates)) (rest ++ after)
    rw [hrest, insertRanked_comm hb]
    rfl

/-! ## §2. Candidates rank by rank. -/

theorem ofRank_middle {c : Implementation s} {before : List (Implementation s)}
    (h : ∀ b ∈ before, b.preference ≠ c.preference) (after : List (Implementation s)) (rank : Nat) :
    ofRank rank (before ++ c :: after) = ofRank rank (c :: (before ++ after)) := by
  show ofRank rank (before ++ ([c] ++ after)) = ofRank rank ([c] ++ (before ++ after))
  rw [ofRank_append, ofRank_append, ofRank_append, ofRank_append]
  by_cases hrank : c.preference = rank
  · have hnone : ofRank rank before = [] :=
      List.filter_eq_nil_iff.mpr fun b hb => by simpa [← hrank] using h b hb
    rw [hnone, List.nil_append, List.nil_append]
  · have hother : ofRank rank [c] = [] := List.filter_cons_of_neg (by simpa using hrank)
    rw [hother, List.nil_append, List.nil_append]

theorem ofRank_cons_cancel {c : Implementation s} {xs ys : List (Implementation s)} {rank : Nat}
    (h : ofRank rank (c :: xs) = ofRank rank (c :: ys)) : ofRank rank xs = ofRank rank ys := by
  have happend : ofRank rank ([c] ++ xs) = ofRank rank ([c] ++ ys) := h
  rw [ofRank_append, ofRank_append] at happend
  exact List.append_cancel_left happend

/-- Where a sequence begins with a candidate, one that agrees with it rank by rank has that candidate
behind others of other ranks only. -/
theorem exists_of_ofRank_cons {c : Implementation s} {rest new : List (Implementation s)}
    (h : ∀ rank, ofRank rank (c :: rest) = ofRank rank new) :
    ∃ before after, new = before ++ c :: after ∧ (∀ b ∈ before, b.preference ≠ c.preference) ∧
      ∀ rank, ofRank rank rest = ofRank rank (before ++ after) := by
  have hown : ofRank c.preference new = c :: ofRank c.preference rest := by
    rw [← h]
    exact List.filter_cons_of_pos (by simp)
  obtain ⟨before, after, rfl, hbefore, -, -⟩ := List.filter_eq_cons_iff.mp hown
  have hothers : ∀ b ∈ before, b.preference ≠ c.preference := fun b hb => by simpa using hbefore b hb
  refine ⟨before, after, rfl, hothers, fun rank => ?_⟩
  have hrank := h rank
  rw [ofRank_middle hothers] at hrank
  exact ofRank_cons_cancel hrank

/-- **Sequences that agree rank by rank fill a slot alike.** -/
theorem insertEach_congr {first second : List (Implementation s)}
    (h : ∀ rank, ofRank rank first = ofRank rank second) (candidates : List (Implementation s)) :
    insertEach candidates first = insertEach candidates second := by
  induction first generalizing second candidates with
  | nil =>
    -- whatever were in the second sequence would be of some rank
    have hnone : second = [] := by
      refine List.eq_nil_iff_forall_not_mem.mpr fun c hc => ?_
      have hmem : c ∈ ofRank c.preference second := List.mem_filter.mpr ⟨hc, by simp⟩
      rw [← h] at hmem
      cases hmem
    rw [hnone]
  | cons c rest ih =>
    obtain ⟨before, after, rfl, hothers, hrest⟩ := exists_of_ofRank_cons h
    calc insertEach candidates (c :: rest)
        = insertEach (insertRanked c candidates) rest := rfl
      _ = insertEach (insertRanked c candidates) (before ++ after) := ih hrest _
      _ = insertEach candidates (c :: (before ++ after)) := rfl
      _ = insertEach candidates (before ++ c :: after) := (insertEach_middle hothers after candidates).symm

namespace Registry

variable {registry : Registry s} {call : Registration s}

/-! ## §3. What calls leave in a slot. -/

instance (depth : Depth) (call : Registration s) : Decidable (Accepts depth call) :=
  decidable_of_iff (call.implementation.kernel.signature = call.slot.kind.signature ∧
      call.slot.supported = true ∧ call.depth = depth)
    ⟨fun h => ⟨h.1, h.2.1, h.2.2⟩, fun h => ⟨h.signature, h.supported, h.depth⟩⟩

/-- **Which calls are accepted depends on the depth alone.** -/
theorem accepted_eq_filter (registry : Registry s) (calls : List (Registration s)) :
    registry.accepted calls = calls.filter fun call => Accepts registry.depth call := by
  induction calls generalizing registry with
  | nil => rfl
  | cons call rest ih =>
    by_cases haccepts : Accepts registry.depth call
    · have hregister := register_of_accepts haccepts
      simp only [accepted, hregister, ih]
      rw [List.filter_cons_of_pos (by simpa using haccepts)]
      rfl
    · rcases accepts_or_refusedFor registry.depth call with hcall | ⟨cause, hcause⟩
      · exact absurd hcall haccepts
      · have hregister := register_of_refusedFor hcause
        simp only [accepted, hregister, ih]
        rw [List.filter_cons_of_neg (by simpa using haccepts)]

theorem registeredFor_append (slot : Slot) (first second : List (Registration s)) :
    registeredFor slot (first ++ second) = registeredFor slot first ++ registeredFor slot second := by
  unfold registeredFor
  rw [List.filter_append, List.map_append]

theorem registeredFor_cons_self (call : Registration s) (rest : List (Registration s)) :
    registeredFor call.slot (call :: rest) = call.implementation :: registeredFor call.slot rest := by
  simp [registeredFor]

theorem registeredFor_cons_of_ne {slot : Slot} (hslot : slot ≠ call.slot)
    (rest : List (Registration s)) :
    registeredFor slot (call :: rest) = registeredFor slot rest := by
  simp [registeredFor, Ne.symm hslot]

/-- **After any calls a slot is what it was, with the accepted candidates inserted in their order.** -/
theorem candidates_afterCalls (registry : Registry s) (calls : List (Registration s)) (slot : Slot) :
    (registry.afterCalls calls).candidates slot
      = insertEach (registry.candidates slot) (registeredFor slot (registry.accepted calls)) := by
  induction calls generalizing registry with
  | nil => rfl
  | cons call rest ih =>
    cases hregister : registry.register call with
    | error cause =>
      rw [afterCalls_cons_of_error hregister]
      simp only [accepted, hregister]
      exact ih registry
    | ok next =>
      obtain ⟨-, rfl⟩ := register_eq_ok_iff.mp hregister
      rw [afterCalls_cons_of_ok hregister, ih]
      simp only [accepted, hregister]
      by_cases hslot : slot = call.slot
      · subst hslot
        have hhere : (registry.insert call.slot call.implementation).candidates call.slot
            = insertRanked call.implementation (registry.candidates call.slot) := assign_self ..
        rw [hhere, registeredFor_cons_self]
        rfl
      · have hthere : (registry.insert call.slot call.implementation).candidates slot
            = registry.candidates slot := assign_of_ne hslot
        rw [hthere, registeredFor_cons_of_ne hslot]

/-- A registry is its depth and its candidates. -/
theorem eq_of_candidates {first second : Registry s} (hdepth : first.depth = second.depth)
    (h : ∀ slot, first.candidates slot = second.candidates slot) : first = second := by
  obtain ⟨depth, stored, candidates⟩ := first
  obtain ⟨depth', stored', candidates'⟩ := second
  obtain rfl : depth = depth' := hdepth
  obtain rfl : candidates = candidates' := funext h
  rfl

/-! ## §4. The same calls in another order. -/

/-- The same calls in another order, in which accepted candidates of one slot and one rank follow one
another as before. -/
structure Reorders (registry : Registry s) (first second : List (Registration s)) : Prop where
  same : first.Perm second
  ties : ∀ slot rank, ofRank rank (registeredFor slot (registry.accepted first))
    = ofRank rank (registeredFor slot (registry.accepted second))

theorem Reorders.afterCalls_eq {first second : List (Registration s)}
    (h : registry.Reorders first second) : registry.afterCalls first = registry.afterCalls second := by
  refine eq_of_candidates ?_ fun slot => ?_
  · rw [depth_afterCalls, depth_afterCalls]
  · rw [candidates_afterCalls, candidates_afterCalls]
    exact insertEach_congr (h.ties slot) _

/-- **Where candidates are ranked, the order of ties is all that can be told apart.** -/
theorem Records.reorders_iff {history : List (Registration s)} (h : registry.Records history)
    {first second : List (Registration s)} (hsame : first.Perm second) :
    registry.Reorders first second ↔ registry.afterCalls first = registry.afterCalls second := by
  refine ⟨Reorders.afterCalls_eq, fun heq => ⟨hsame, fun slot rank => ?_⟩⟩
  -- a slot shows the candidates of one rank as they came, after those that it had before
  have hshown : ∀ calls, ofRank rank ((registry.afterCalls calls).candidates slot)
      = ofRank rank (registeredFor slot history)
        ++ ofRank rank (registeredFor slot (registry.accepted calls)) := by
    intro calls
    rw [(h.afterCalls calls slot).aged, registeredFor_append, ofRank_append]
  have hboth := hshown first
  rw [heq, hshown second] at hboth
  exact (List.append_cancel_left hboth).symm

/-- **In whatever order calls are made on a registry, if only ties stay as they are**, the same calls
are refused, the slots are the same, and every build gives the same table or the same refusal. -/
theorem registration_order_breaks_ties_only (registry : Registry s)
    {first second : List (Registration s)} (h : registry.Reorders first second) :
    (registry.accepted first).Perm (registry.accepted second) ∧
      registry.afterCalls first = registry.afterCalls second ∧
      ∀ flags, (registry.afterCalls first).build flags = (registry.afterCalls second).build flags := by
  have hslots := h.afterCalls_eq
  refine ⟨?_, hslots, fun flags => ?_⟩
  · rw [accepted_eq_filter, accepted_eq_filter]
    exact h.same.filter _
  · rw [hslots]

/-- Two candidates of one rank for one slot. -/
def tiedCalls : List (Registration .word) :=
  [⟨⟨.sad, .b4x4⟩, .ten, ⟨"early", .avx2, portableKernel ⟨.sad, .b4x4⟩⟩⟩,
    ⟨⟨.sad, .b4x4⟩, .ten, ⟨"late", .avx2, portableKernel ⟨.sad, .b4x4⟩⟩⟩]

/-- A candidate of another rank, and one for another slot. -/
def freeCalls : List (Registration .word) :=
  [⟨⟨.sad, .b4x4⟩, .ten, portableImplementation ⟨.sad, .b4x4⟩⟩,
    ⟨⟨.sad, .b8x8⟩, .ten, ⟨"elsewhere", .avx2, portableKernel ⟨.sad, .b8x8⟩⟩⟩]

/-- A candidate of the signature of another kind. -/
def misplacedCall : Registration .word :=
  ⟨⟨.sad, .b4x4⟩, .ten, ⟨"misplaced", .avx2, portableKernel ⟨.sadAvg, .b4x4⟩⟩⟩

/-- A registry for 10 bits in which nothing has been registered. -/
def bareTen : Registry .word := ⟨.ten, rfl, fun _ => []⟩

/-- The tied calls come last instead of first, and the refused one between. -/
theorem tiedCalls_after_freeCalls :
    bareTen.Reorders (tiedCalls ++ (freeCalls ++ [misplacedCall])) (freeCalls ++ [misplacedCall] ++ tiedCalls) ∧
    bareTen.afterCalls (tiedCalls ++ (freeCalls ++ [misplacedCall]))
      = bareTen.afterCalls (freeCalls ++ [misplacedCall] ++ tiedCalls) ∧
    ((bareTen.afterCalls (freeCalls ++ [misplacedCall] ++ tiedCalls)).candidates ⟨.sad, .b4x4⟩).map
      Implementation.name = ["early", "late", "rust"] := by
  have hreorders : bareTen.Reorders (tiedCalls ++ (freeCalls ++ [misplacedCall]))
      (freeCalls ++ [misplacedCall] ++ tiedCalls) := by
    refine ⟨List.perm_append_comm, fun slot rank => ?_⟩
    show ofRank rank (registeredFor slot (tiedCalls ++ freeCalls))
      = ofRank rank (registeredFor slot (freeCalls ++ tiedCalls))
    rw [registeredFor_append, registeredFor_append, ofRank_append, ofRank_append]
    -- no slot has candidates of one rank on both sides
    by_cases hslot : slot = ⟨.sad, .b4x4⟩
    · subst hslot
      by_cases hrank : rank = 0
      · subst hrank
        rfl
      · have hfree : ofRank rank (registeredFor ⟨.sad, .b4x4⟩ freeCalls) = [] :=
          List.filter_cons_of_neg fun hsame => hrank (of_decide_eq_true hsame).symm
        rw [hfree, List.nil_append, List.append_nil]
    · have htied : registeredFor slot tiedCalls = [] := by
        simp [registeredFor, tiedCalls, Ne.symm hslot]
      rw [htied]
      exact (List.append_nil _).symm
  obtain ⟨-, hslots, -⟩ := registration_order_breaks_ties_only bareTen hreorders
  exact ⟨hreorders, hslots, rfl⟩

end Registry

end PixelKernels
