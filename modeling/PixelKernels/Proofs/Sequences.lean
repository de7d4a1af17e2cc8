/-
  PixelKernels.Proofs.Sequences
  ─────────────────────────────
  **LOOPS THAT DO NOT FAIL ARE PURE LOOPS.**

  Kernels and checks are loops over rows, lanes and planes in which every
  step may fault.  Where no step does, the loop is the plain `map` or `foldl`
  of what the steps answer; that is the only way in which the later modules
  open a loop.  Sums over such loops are sums over `Finset.range`, and a sum
  over `m * n` positions is cut into `n` runs of `m`.
-/
import Mathlib
import PixelKernels.Machine

namespace PixelKernels

/-! ## §1. Loops over lists. -/

namespace Outcome

variable {α β : Type}

theorem mapM_of_forall_ok {f : α → Outcome β} {g : α → β} {l : List α}
    (h : ∀ a ∈ l, f a = .ok (g a)) : l.mapM f = .ok (l.map g) := by
  induction l with
  | nil => rfl
  | cons a rest ih =>
    rw [List.mapM_cons, h a List.mem_cons_self, ok_bind,
      ih fun b hb => h b (List.mem_cons_of_mem a hb)]
    rfl

theorem foldlM_of_forall_ok {step : β → α → Outcome β} {next : β → α → β} {l : List α}
    (h : ∀ a ∈ l, ∀ b, step b a = .ok (next b a)) (start : β) :
    l.foldlM step start = .ok (l.foldl next start) := by
  induction l generalizing start with
  | nil => rfl
  | cons a rest ih =>
    rw [List.foldlM_cons, h a List.mem_cons_self, ok_bind,
      ih (fun b hb => h b (List.mem_cons_of_mem a hb))]
    rfl

theorem foldlM_congr {f g : β → α → Outcome β} {l : List α}
    (h : ∀ a ∈ l, ∀ b, f b a = g b a) (start : β) : l.foldlM f start = l.foldlM g start := by
  induction l generalizing start with
  | nil => rfl
  | cons a rest ih =>
    rw [List.foldlM_cons, List.foldlM_cons, h a List.mem_cons_self]
    exact congrArg _ (funext (ih fun b hb => h b (List.mem_cons_of_mem a hb)))

/-- A loop over runs of elements is a loop over the runs. -/
theorem foldlM_flatMap {γ : Type} {f : α → List γ} {step : β → γ → Outcome β} {l : List α} (start : β) :
    (l.flatMap f).foldlM step start = l.foldlM (fun acc a => (f a).foldlM step acc) start := by
  induction l generalizing start with
  | nil => rfl
  | cons a rest ih =>
    rw [List.flatMap_cons, List.foldlM_append, List.foldlM_cons]
    exact congrArg _ (funext ih)

/-- A check and what follows it succeed exactly when both do. -/
theorem check_bind_eq_ok_iff {x : Outcome Unit} {f : Unit → Outcome α} {a : α} :
    (x >>= f) = .ok a ↔ x = .ok () ∧ f () = .ok a := by
  rw [bind_eq_ok_iff]
  constructor
  · rintro ⟨_, hcheck, hrest⟩
    exact ⟨hcheck, hrest⟩
  · rintro ⟨hcheck, hrest⟩
    exact ⟨(), hcheck, hrest⟩

/-- The faults with which a computation can end. -/
def FaultsWithin (P : Fault → Prop) (x : Outcome α) : Prop := ∀ found, x = .error found → P found

section FaultsWithin

variable {P Q : Fault → Prop}

theorem faultsWithin_ok (P : Fault → Prop) (a : α) : FaultsWithin P (.ok a) := by
  intro found h
  cases h

theorem FaultsWithin.mono {x : Outcome α} (h : FaultsWithin P x) (hPQ : ∀ fault, P fault → Q fault) :
    FaultsWithin Q x :=
  fun found hfound => hPQ found (h found hfound)

theorem faultsWithin_require {condition : Bool} {fault : Fault} (h : condition = false → P fault) :
    FaultsWithin P (require condition fault) := by
  intro found hfound
  cases condition with
  | true => cases hfound
  | false =>
    cases hfound
    exact h rfl

/-- What comes second only needs to be looked at where the first succeeded. -/
theorem FaultsWithin.bind {x : Outcome α} {f : α → Outcome β} (hx : FaultsWithin P x)
    (hf : ∀ a, x = .ok a → FaultsWithin P (f a)) : FaultsWithin P (x >>= f) := by
  intro found h
  cases x with
  | error cause =>
    cases h
    exact hx found rfl
  | ok a => exact hf a rfl found h

theorem faultsWithin_forM {f : α → Outcome Unit} {l : List α}
    (h : ∀ a ∈ l, FaultsWithin P (f a)) : FaultsWithin P (forM l f) := by
  induction l with
  | nil => exact faultsWithin_ok P ()
  | cons a rest ih =>
    rw [List.forM_cons]
    exact (h a List.mem_cons_self).bind fun _ _ => ih fun b hb => h b (List.mem_cons_of_mem a hb)

end FaultsWithin

/-- The one fault with which a computation can end. -/
def FaultsOnlyWith (fault : Fault) (x : Outcome α) : Prop := ∀ found, x = .error found → found = fault

theorem faultsOnlyWith_ok (fault : Fault) (a : α) : FaultsOnlyWith fault (.ok a) :=
  faultsWithin_ok (· = fault) a

theorem faultsOnlyWith_bind {fault : Fault} {x : Outcome α} {f : α → Outcome β}
    (hx : FaultsOnlyWith fault x) (hf : ∀ a, FaultsOnlyWith fault (f a)) :
    FaultsOnlyWith fault (x >>= f) :=
  FaultsWithin.bind (P := (· = fault)) hx fun a _ => hf a

/-- A loop of checks passes exactly when every check does. -/
theorem forM_eq_ok_iff {f : α → Outcome Unit} {l : List α} :
    forM l f = .ok () ↔ ∀ a ∈ l, f a = .ok () := by
  induction l with
  | nil => simp; rfl
  | cons a rest ih =>
    rw [List.forM_cons, check_bind_eq_ok_iff, List.forall_mem_cons, ih]

/-! ## §2. Loops over vectors. -/

variable {n : Nat}

theorem mapM_vector_of_forall_ok {f : α → Outcome β} {g : α → β} {v : Vector α n}
    (h : ∀ a ∈ v, f a = .ok (g a)) : v.mapM f = .ok (v.map g) := by
  obtain ⟨⟨l⟩, rfl⟩ := v
  apply Vector.map_toArray_inj.mp
  rw [Vector.toArray_mapM, Array.mapM_eq_mapM_toList,
    mapM_of_forall_ok (β := β) (fun a ha => h a (by simpa using ha))]
  show Except.ok (l.map g).toArray = Except.ok _
  simp

theorem forM_vector_eq_ok_iff {f : α → Outcome Unit} {v : Vector α n} :
    forM v f = .ok () ↔ ∀ a ∈ v, f a = .ok () := by
  obtain ⟨⟨l⟩, rfl⟩ := v
  have h := forM_eq_ok_iff (f := f) (l := l)
  simpa using h

theorem faultsWithin_forM_vector {P : Fault → Prop} {f : α → Outcome Unit} {v : Vector α n}
    (h : ∀ a ∈ v, FaultsWithin P (f a)) : FaultsWithin P (forM v f) := by
  obtain ⟨⟨l⟩, rfl⟩ := v
  have hlist := faultsWithin_forM (l := l) fun a ha => h a (by simpa using ha)
  simpa using hlist

end Outcome

/-- Folds that run side by side, one for each entry of a vector, do not see each other. -/
theorem foldl_zip_map {γ : Type} (v : Vector β n) (next : α → β → γ → α) (l : List γ) (start : β → α) :
    l.foldl (fun accs c => (accs.zip v).map fun p => next p.1 p.2 c) (v.map start)
      = v.map fun b => l.foldl (fun acc c => next acc b c) (start b) := by
  induction l generalizing start with
  | nil => rfl
  | cons c rest ih =>
    have hstep : ((v.map start).zip v).map (fun p => next p.1 p.2 c)
        = v.map fun b => next (start b) b c := by
      apply Vector.ext
      intro i hi
      simp
    -- the step leaves such a vector again, with new starts
    rw [List.foldl_cons, hstep, ih]
    rfl

/-- What holds of all elements and of a default holds of whatever a position reads. -/
theorem forall_getD {α : Type} {P : α → Prop} {data : Array α} {default : α} (h : ∀ v ∈ data, P v)
    (hdefault : P default) (i : Nat) : P (data.getD i default) := by
  rw [Array.getD_eq_getD_getElem?]
  cases hread : data[i]? with
  | none => exact hdefault
  | some v => exact h v (Array.mem_of_getElem? hread)

/-- Inside the buffer no default is needed. -/
theorem elementAt_eq_getD {α : Type} {data : Array α} {i : Nat} (h : i < data.size) (default : α) :
    elementAt data i = .ok (data.getD i default) := by
  rw [elementAt_eq_ok_iff, Array.getD_eq_getD_getElem?, Array.getElem?_eq_getElem h]
  rfl

/-- A slice inside the buffer, position by position. -/
theorem slice_eq_map_range {α : Type} {data : Array α} {start length : Nat}
    (h : start + length ≤ data.size) (default : α) :
    slice data start length = .ok ((List.range length).map fun i => data.getD (start + i) default) := by
  rw [slice_of_le h]
  refine congrArg Except.ok (List.ext_getElem (by simp; omega) ?_)
  intro i hi _
  simp only [List.length_take, List.length_drop, Array.length_toList] at hi
  simp only [List.getElem_take, List.getElem_drop, List.getElem_map, List.getElem_range,
    Array.getD_eq_getD_getElem?]
  rw [Array.getElem?_eq_getElem (by omega)]
  simp

/-- A counting loop, its first step apart. -/
theorem map_range_succ {α : Type} (n : Nat) (f : Nat → α) :
    (List.range (n + 1)).map f = f 0 :: (List.range n).map fun i => f (i + 1) := by
  rw [List.range_succ_eq_map, List.map_cons, List.map_map]
  rfl

/-! ## §3. Loops over rows. -/

/-- Rows of one length, one after another: position `x` of row `k` is `k` rows further on. -/
theorem getElem?_flatten_of_length {α : Type} {width x : Nat} (hx : x < width) {rows : List (List α)} :
    ∀ {k : Nat}, (∀ row ∈ rows, row.length = width) →
      rows.flatten[k * width + x]? = rows[k]?.bind (·[x]?) := by
  induction rows with
  | nil => intro k _; rfl
  | cons row rest ih =>
    intro k hrows
    have hrow := hrows row List.mem_cons_self
    rw [List.flatten_cons]
    cases k with
    | zero =>
      rw [Nat.zero_mul, Nat.zero_add, List.getElem?_append_left (by omega)]
      rfl
    | succ k =>
      have hnext : (k + 1) * width + x - row.length = k * width + x := by
        rw [hrow, Nat.succ_mul]
        omega
      rw [List.getElem?_append_right (by rw [hrow, Nat.succ_mul]; omega), hnext,
        ih fun r hr => hrows r (List.mem_cons_of_mem row hr)]
      rfl

theorem length_flatten_of_length {α : Type} {width : Nat} {rows : List (List α)}
    (h : ∀ row ∈ rows, row.length = width) : rows.flatten.length = rows.length * width := by
  rw [List.length_flatten, List.map_congr_left h, List.map_const', List.sum_replicate, Nat.nsmul_eq_mul]

/-- Counting to `height * width` is counting row by row. -/
theorem range_mul (width height : Nat) :
    List.range (height * width)
      = (List.range height).flatMap fun y => (List.range width).map fun x => y * width + x := by
  induction height with
  | zero => simp
  | succ height ih =>
    rw [Nat.succ_mul, List.range_add, ih, List.range_succ, List.flatMap_append]
    simp

/-- A loop over elements and their positions is a loop over the positions. -/
theorem mapIdx_eq_map_range {α β : Type} (f : Nat → α → β) (l : List α) (default : α) :
    l.mapIdx f = (List.range l.length).map fun i => f i (l.getD i default) := by
  refine List.ext_getElem (by simp) ?_
  intro i hi _
  rw [List.length_mapIdx] at hi
  simp [hi]

/-! ## §4. Sums over loops. -/

open Finset

variable {M : Type} [AddCommMonoid M]

/-- A sum over a counting loop is a sum over its range. -/
theorem sum_map_range (n : Nat) (f : Nat → M) :
    ((List.range n).map f).sum = ∑ i ∈ range n, f i := rfl

/-- A sum over a nested loop is the sum of the inner sums. -/
theorem sum_map_flatMap {α β : Type} (l : List α) (f : α → List β) (g : β → M) :
    ((l.flatMap f).map g).sum = (l.map fun a => ((f a).map g).sum).sum := by
  induction l with
  | nil => rfl
  | cons a rest ih => simp [ih]

/-- A sum over `m * n` positions, run by run. -/
theorem sum_range_mul (m n : Nat) (f : Nat → M) :
    ∑ k ∈ range (m * n), f k = ∑ i ∈ range n, ∑ j ∈ range m, f (m * i + j) := by
  induction n with
  | zero => simp
  | succ n ih => rw [Nat.mul_succ, sum_range_add, ih, sum_range_succ]

/-- A running sum that stays below the limit is the sum. -/
theorem foldlM_asUInt32_of_lt (values : List Nat) (start : Nat)
    (h : start + values.sum < 1 <<< 32) :
    values.foldlM (fun total v => asUInt32 (total + v)) start = .ok (start + values.sum) := by
  induction values generalizing start with
  | nil => rfl
  | cons v rest ih =>
    simp only [List.sum_cons] at h ⊢
    rw [List.foldlM_cons, asUInt32_of_lt (by omega), Outcome.ok_bind, ih _ (by omega)]
    simp [Nat.add_assoc]

theorem sumUInt32_of_lt {values : List Nat} (h : values.sum < 1 <<< 32) :
    sumUInt32 values = .ok values.sum := by
  rw [sumUInt32, foldlM_asUInt32_of_lt values 0 (by omega), Nat.zero_add]

end PixelKernels
