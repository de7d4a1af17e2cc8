/-
  PixelKernels.Proofs.Rectangles
  ──────────────────────────────
  **A RECTANGLE THAT FITS IS READ WITHOUT A FAULT.**

  `Plane.fits` looks at the first and the last row of a rectangle only.  The
  start of a row is linear in its number, so every row in between starts
  between the two, whatever the sign of the stride, and its 64-bit arithmetic
  stays in range with theirs.  `Plane.Holds` says this row by row.  Under it a
  plane is a matrix of samples, `Plane.pixel`, and reading is looking there.
-/
import PixelKernels.Plane
import PixelKernels.Proofs.Sequences

namespace PixelKernels

/-- 64 signed bits hold the value. -/
def InInt64 (v : Int) : Prop := -2 ^ 63 ≤ v ∧ v < 2 ^ 63

namespace Plane

variable {s : Storage}

/-! ## §1. Planes as matrices. -/

/-- Position in the buffer of column `x` of row `y`. -/
def position (p : Plane s) (x y : Nat) : Int := signed p.base + y * p.stride + x

/-- The sample in column `x` of row `y`, and zero outside the buffer. -/
def pixel (p : Plane s) (x y : Nat) : Sample s := p.data.getD (p.position x y).toNat 0

/-- Every row of a rectangle lies inside the buffer, and 64 bits suffice to get there. -/
structure Holds (p : Plane s) (width height : Nat) : Prop where
  rows_lt : height ≤ 2 ^ 63
  rise : ∀ y < height, -2 ^ 63 ≤ y * p.stride ∧ y * p.stride < 2 ^ 63
  start : ∀ y < height, 0 ≤ p.position 0 y
  room : ∀ y < height, p.position 0 y + width ≤ p.data.size
  stop : ∀ y < height, p.position 0 y + width < 2 ^ 63

/-! ## §2. What the check of two rows says about all. -/

theorem Span.check_isOk_iff {span : Span} {length : Nat} :
    (span.check length).isOk = true ↔ 0 ≤ span.low ∧ span.high ≤ length := by
  have hneeded : span.high.toNat ≤ length ↔ span.high ≤ length := by omega
  unfold check
  simp only [hneeded]
  split <;> simp_all [Except.isOk, Except.toBool]

/-- There is a span exactly if every step of the way to it stays in 64 bits. -/
theorem span_eq_ok_iff {base : Nat} {stride : Int} {width height : Nat} {found : Span} :
    span base stride width height = .ok found ↔
      let steps := signed (max height 1) - 1
      let last := signed base + steps * stride
      let high := max (signed base) last + signed width
      (InInt64 steps ∧ InInt64 (steps * stride) ∧ InInt64 last ∧ InInt64 high) ∧
        ⟨min (signed base) last, high⟩ = found := by
  unfold span
  simp only [Outcome.bind_eq_ok_iff, asInt64_eq_ok_iff]
  constructor
  · rintro ⟨_, ⟨rfl, hsteps⟩, _, ⟨rfl, hrise⟩, _, ⟨rfl, hlast⟩, _, ⟨rfl, hhigh⟩, hfound⟩
    exact ⟨⟨hsteps, hrise, hlast, hhigh⟩, Except.ok.inj hfound⟩
  · rintro ⟨⟨hsteps, hrise, hlast, hhigh⟩, rfl⟩
    exact ⟨_, ⟨rfl, hsteps⟩, _, ⟨rfl, hrise⟩, _, ⟨rfl, hlast⟩, _, ⟨rfl, hhigh⟩, rfl⟩

/-- A rectangle is accepted exactly if it has a span and the buffer contains it. -/
theorem fits_eq_true_iff {p : Plane s} {width height : Nat} :
    p.fits width height = .ok true
      ↔ ∃ found, span p.base p.stride width height = .ok found ∧
        0 ≤ found.low ∧ found.high ≤ p.data.size := by
  unfold fits
  rw [Outcome.bind_eq_ok_iff]
  refine exists_congr fun found => and_congr_right fun _ => ?_
  rw [← Span.check_isOk_iff]
  exact ⟨Except.ok.inj, congrArg Except.ok⟩

/-- A multiple of the stride lies between none of it and a larger multiple. -/
theorem mul_stride_between {y steps : Nat} (stride : Int) (hy : y ≤ steps) :
    min 0 (steps * stride) ≤ y * stride ∧ y * stride ≤ max 0 (steps * stride) := by
  have hcast : (y : Int) ≤ steps := by omega
  -- the sign of the stride decides which end is the lower one
  rcases Int.le_total 0 stride with hs | hs
  · have hlow : 0 ≤ y * stride := Int.mul_nonneg (by omega) hs
    have hhigh : y * stride ≤ steps * stride := Int.mul_le_mul_of_nonneg_right hcast hs
    omega
  · have hlow : y * stride ≤ 0 := Int.mul_nonpos_of_nonneg_of_nonpos (by omega) hs
    have hhigh : steps * stride ≤ y * stride := Int.mul_le_mul_of_nonpos_right hcast hs
    omega

/-- **A rectangle that passes the check lies inside the buffer with every row.** -/
theorem holds_of_fits {p : Plane s} {width height : Nat} (hw : width < 2 ^ 63)
    (hh : height < 2 ^ 63) (h : p.fits width height = .ok true) : p.Holds width height := by
  have hsteps : signed (max height 1) - 1 = (max height 1 - 1 : Nat) := by
    rw [signed_of_lt (by omega)]; omega
  obtain ⟨found, hspan, hends⟩ := fits_eq_true_iff.mp h
  rw [span_eq_ok_iff, hsteps, signed_of_lt hw] at hspan
  obtain ⟨⟨_, hrise, hlast, hhigh⟩, rfl⟩ := hspan
  have hfirst := signed_range p.base
  -- what the check compares: the lowest start and the highest end
  dsimp only at hends
  unfold InInt64 at hrise hlast hhigh
  have hrow : ∀ y < height, min 0 ((max height 1 - 1 : Nat) * p.stride) ≤ y * p.stride ∧
      y * p.stride ≤ max 0 ((max height 1 - 1 : Nat) * p.stride) :=
    fun y hy => mul_stride_between p.stride (by omega)
  refine ⟨by omega, ?_, ?_, ?_, ?_⟩ <;> intro y hy <;> have hy := hrow y hy
  · omega
  all_goals
    unfold position
    omega

/-- A rectangle that lies inside the buffer with every row passes the check. -/
theorem fits_of_holds {p : Plane s} {width height : Nat} (hw : width < 2 ^ 63) (hh : height < 2 ^ 63)
    (hpos : 0 < height) (h : p.Holds width height) : p.fits width height = .ok true := by
  have hsteps : signed (max height 1) - 1 = (height - 1 : Nat) := by
    rw [signed_of_lt (by omega)]
    omega
  have hfirst : p.position 0 0 = signed p.base := by simp [position]
  have hlast : p.position 0 (height - 1) = signed p.base + (height - 1 : Nat) * p.stride := by
    simp [position]
  have hrise := h.rise (height - 1) (by omega)
  have hstart := h.start 0 hpos
  have hroom := h.room 0 hpos
  have hstop := h.stop 0 hpos
  have hstart' := h.start (height - 1) (by omega)
  have hroom' := h.room (height - 1) (by omega)
  have hstop' := h.stop (height - 1) (by omega)
  rw [hfirst] at hstart hroom hstop
  rw [hlast] at hstart' hroom' hstop'
  refine fits_eq_true_iff.mpr ⟨_, span_eq_ok_iff.mpr ⟨?_, rfl⟩, ?_⟩
  · rw [hsteps, signed_of_lt hw]
    unfold InInt64
    omega
  · rw [hsteps, signed_of_lt hw]
    dsimp only
    omega

theorem faultsOnlyWith_asInt64 (v : Int) : Outcome.FaultsOnlyWith .overflow (asInt64 v) := by
  intro found h
  unfold asInt64 at h
  split at h
  · cases h
  · cases h
    rfl

/-- Where a rectangle lies is a matter of 64-bit arithmetic and of nothing else. -/
theorem faultsOnlyWith_span (base : Nat) (stride : Int) (width height : Nat) :
    Outcome.FaultsOnlyWith .overflow (span base stride width height) := by
  unfold span
  refine Outcome.faultsOnlyWith_bind (faultsOnlyWith_asInt64 _) fun steps => ?_
  refine Outcome.faultsOnlyWith_bind (faultsOnlyWith_asInt64 _) fun rise => ?_
  refine Outcome.faultsOnlyWith_bind (faultsOnlyWith_asInt64 _) fun last => ?_
  exact Outcome.faultsOnlyWith_bind (faultsOnlyWith_asInt64 _) fun high => Outcome.faultsOnlyWith_ok _ _

/-- Asking whether a rectangle fits can only fail in the 64-bit arithmetic of its span. -/
theorem faultsOnlyWith_fits (p : Plane s) (width height : Nat) :
    Outcome.FaultsOnlyWith .overflow (p.fits width height) :=
  Outcome.faultsOnlyWith_bind (faultsOnlyWith_span _ _ _ _) fun _ => Outcome.faultsOnlyWith_ok _ _

/-- Whether a plane holds a rectangle does not depend on its samples. -/
theorem Holds.with_data {p : Plane s} {width height : Nat} {data : Array (Sample s)}
    (h : p.Holds width height) (hsize : data.size = p.data.size) :
    ({ p with data := data } : Plane s).Holds width height where
  rows_lt := h.rows_lt
  rise := h.rise
  start := h.start
  room := by rw [hsize]; exact h.room
  stop := h.stop

theorem assertFits_of_fits {p : Plane s} {width height : Nat} (h : p.fits width height = .ok true) :
    p.assertFits width height = .ok () := by
  rw [assertFits, h, Outcome.ok_bind, Outcome.require_true]

/-! ## §3. Reading under the guarantee. -/

theorem position_add (p : Plane s) (x y : Nat) : p.position x y = p.position 0 y + x := by
  simp [position]

theorem rowStart_of_holds {p : Plane s} {width height y : Nat} (h : p.Holds width height)
    (hy : y < height) : p.rowStart y = .ok (p.position 0 y).toNat := by
  have hrise := h.rise y hy
  have hstart := h.start y hy
  have hstop := h.stop y hy
  have hrows := h.rows_lt
  simp only [position, Int.add_zero, Int.natCast_zero] at hstart hstop ⊢
  unfold rowStart
  rw [signed_of_lt (by omega), asInt64_of_range hrise.1 hrise.2, Outcome.ok_bind,
    asInt64_of_range (by omega) (by omega), Outcome.ok_bind]
  simp only [hstart, decide_true, Outcome.require_true, Outcome.ok_bind]
  rfl

/-- A row of a rectangle that fits is the row of the matrix. -/
theorem row_of_holds {p : Plane s} {width height y : Nat} (h : p.Holds width height)
    (hy : y < height) : p.row y width = .ok ((List.range width).map fun x => p.pixel x y) := by
  have hstart := h.start y hy
  have hroom := h.room y hy
  rw [row, rowStart_of_holds h hy, Outcome.ok_bind, slice_eq_map_range (by omega) 0]
  apply congrArg Except.ok
  apply List.map_congr_left
  intro x _
  have hat : (p.position x y).toNat = (p.position 0 y).toNat + x := by
    rw [position_add]; omega
  rw [pixel, hat]

/-- A single sample of a rectangle that fits is the entry of the matrix. -/
theorem sampleAt_of_holds {p : Plane s} {width height x y : Nat} (h : p.Holds width height)
    (hx : x < width) (hy : y < height) : p.sampleAt x y = .ok (p.pixel x y).toNat := by
  have hrise := h.rise y hy
  have hstart := h.start y hy
  have hstop := h.stop y hy
  have hroom := h.room y hy
  have hrows := h.rows_lt
  have hat := position_add p x y
  simp only [position, Int.add_zero, Int.natCast_zero] at hstart hstop hroom hat
  have hread : p.data[(signed p.base + y * p.stride + x).toNat]? = some (p.pixel x y) := by
    rw [pixel, position, Array.getD_eq_getD_getElem?, Array.getElem?_eq_getElem (by omega)]
    simp
  unfold sampleAt
  rw [signed_of_lt (by omega), asInt64_of_range hrise.1 hrise.2, Outcome.ok_bind,
    asInt64_of_range (by omega) (by omega), Outcome.ok_bind,
    asInt64_of_range (by omega) (by omega), Outcome.ok_bind, elementAt_eq_ok_iff.mpr hread]
  have hpos : 0 ≤ signed p.base + y * p.stride + x := by omega
  simp only [hpos, decide_true, Outcome.require_true, Outcome.ok_bind]
  rfl

end Plane

end PixelKernels
