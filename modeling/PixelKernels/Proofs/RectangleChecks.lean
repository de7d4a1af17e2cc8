/-
  PixelKernels.Proofs.RectangleChecks
  ───────────────────────────────────
  **WHAT THE CHECK OF A RECTANGLE DECIDES.**

  `Plane.checked` and `Plane.fits` look at the first and at the last row of a
  rectangle, in 64-bit arithmetic.  Where 64 signed bits hold the base and
  both sizes, that decides about every row (`Plane.decides`):

    • the arithmetic gives way exactly if the way to the last row, its start
      or the end of the rectangle is outside 64 bits (`Plane.Within64`);
    • else the rectangle is accepted exactly if all its rows lie inside the
      buffer, and then each of them can be read and written
      (`Plane.rowUsable_of_holds`);
    • else what the refusal asks for is the least length that would do, unless
      a row starts before the buffer (`Plane.needed_isLeast`).

  Sizes are read as signed positions, so one of 2^63 or more counts as
  negative, and a rectangle can be accepted that no buffer holds.
  `Plane.FaithfulSizes` are the sizes with which that does not happen.
-/
import PixelKernels.Proofs.ExactCosts
import PixelKernels.Proofs.WrittenBlocks

namespace PixelKernels

variable {s : Storage}

namespace Plane

/-! ## §1. The first row, the last row and the rows between. -/

/-- Number of the last row that is checked: a rectangle without rows counts as one row. -/
def lastRow (height : Nat) : Nat := max height 1 - 1

/-- The end of the first or of the last row, whichever is the higher one. -/
def reach (p : Plane s) (width height : Nat) : Int :=
  max (p.base : Int) (p.index 0 (lastRow height)) + width

/-- 64 signed bits hold the way to the last row, its start, and the end of the rectangle. -/
structure Within64 (p : Plane s) (width height : Nat) : Prop where
  rise : InInt64 (lastRow height * p.stride)
  last : InInt64 (p.index 0 (lastRow height))
  reach : InInt64 (p.reach width height)

/-- The first `rows` rows lie inside the buffer, over the integers. -/
def RowsInside (p : Plane s) (width rows : Nat) : Prop :=
  ∀ y < rows, 0 ≤ p.index 0 y ∧ p.index 0 y + width ≤ p.data.size

theorem lastRow_lt (height : Nat) : lastRow height < max height 1 := by
  unfold lastRow
  omega

theorem index_row (p : Plane s) (y : Nat) : p.index 0 y = p.base + y * p.stride := by
  simp [index]

theorem index_first (p : Plane s) : p.index 0 0 = p.base := by
  simp [index]

variable {p : Plane s} {width height y : Nat}

/-- A row starts between the first one and the last. -/
theorem index_between (hy : y < max height 1) :
    min (p.base : Int) (p.index 0 (lastRow height)) ≤ p.index 0 y ∧
      p.index 0 y ≤ max (p.base : Int) (p.index 0 (lastRow height)) := by
  have hrow : y ≤ lastRow height := by unfold lastRow; omega
  have hbetween := mul_stride_between p.stride hrow
  simp only [index_row]
  omega

/-- No row starts before the buffer exactly if the first and the last do not. -/
theorem rows_start_iff :
    (∀ y < max height 1, 0 ≤ p.index 0 y) ↔ 0 ≤ min (p.base : Int) (p.index 0 (lastRow height)) := by
  constructor
  · intro hrows
    have hend := hrows (lastRow height) (lastRow_lt height)
    omega
  · intro hends y hy
    exact hends.trans (index_between hy).1

/-- **All rows lie inside the buffer exactly if the first and the last do.** -/
theorem rowsInside_iff :
    p.RowsInside width (max height 1)
      ↔ 0 ≤ min (p.base : Int) (p.index 0 (lastRow height)) ∧
        p.reach width height ≤ p.data.size := by
  unfold reach
  constructor
  · intro hrows
    have hfirst := hrows 0 (by omega)
    have hend := hrows (lastRow height) (lastRow_lt height)
    rw [index_first] at hfirst
    omega
  · rintro ⟨hlow, hhigh⟩ y hy
    have hy := index_between (p := p) hy
    omega

/-! ## §2. What is accepted. -/

/-- What the two forms of the check answer, and why. -/
inductive Decides (p : Plane s) (width height : Nat) : Outcome (Plane s) → Outcome Bool → Prop
  /-- 64 bits do not suffice to tell where the rectangle lies. -/
  | overflow (h : ¬ p.Within64 width height) :
      Decides p width height (.error .overflow) (.error .overflow)
  /-- All rows lie inside the buffer. -/
  | accepted (h : p.Within64 width height) (rows : p.RowsInside width (max height 1)) :
      Decides p width height (.ok p) (.ok true)
  /-- Some row does not. -/
  | refused (h : p.Within64 width height) (rows : ¬ p.RowsInside width (max height 1)) :
      Decides p width height
        (.error (.error (.bufferTooSmall (p.reach width height).toNat p.data.size))) (.ok false)

section Answers

variable {answer : Outcome (Plane s)} {fits : Outcome Bool} (h : p.Decides width height answer fits)
include h

/-- Both forms give way together. -/
theorem Decides.overflow_iff :
    (answer = .error .overflow ↔ ¬ p.Within64 width height) ∧
      (fits = .error .overflow ↔ ¬ p.Within64 width height) := by
  cases h with
  | overflow h => simp [h]
  | accepted h => simp [h]
  | refused h => simp [h]

/-- Both forms accept together. -/
theorem Decides.accepted_iff :
    (answer = .ok p ↔ p.Within64 width height ∧ p.RowsInside width (max height 1)) ∧
      (fits = .ok true ↔ p.Within64 width height ∧ p.RowsInside width (max height 1)) := by
  cases h with
  | overflow h => simp [h]
  | accepted h hrows => simp [h, hrows]
  | refused h hrows => simp [hrows]

/-- A refusal names the end of the rectangle. -/
theorem Decides.of_refused (h64 : p.Within64 width height)
    (hrows : ¬ p.RowsInside width (max height 1)) :
    answer = .error (.error (.bufferTooSmall (p.reach width height).toNat p.data.size)) ∧
      fits = .ok false := by
  cases h with
  | overflow h => exact absurd h64 h
  | accepted _ h => exact absurd h hrows
  | refused => exact ⟨rfl, rfl⟩

end Answers

section Signed

variable (hbase : p.base < 2 ^ 63) (hwidth : width < 2 ^ 63) (hheight : height < 2 ^ 63)
include hbase hwidth hheight

/-- Sizes that are read as they are have the integer span, if 64 bits hold it. -/
theorem span_eq_ok_iff_within64 {found : Span} :
    span p.base p.stride width height = .ok found
      ↔ p.Within64 width height ∧
        ⟨min (p.base : Int) (p.index 0 (lastRow height)), p.reach width height⟩ = found := by
  have hsteps : signed (max height 1) - 1 = lastRow height := by
    rw [signed_of_lt (by omega)]
    unfold lastRow
    omega
  have hcount : InInt64 (lastRow height) := by unfold InInt64 lastRow; omega
  rw [span_eq_ok_iff, hsteps, signed_of_lt hbase, signed_of_lt hwidth]
  dsimp only
  rw [← index_row]
  refine and_congr_left fun _ => ⟨?_, ?_⟩
  · rintro ⟨_, hrise, hlast, hreach⟩
    exact ⟨hrise, hlast, hreach⟩
  · intro h
    exact ⟨hcount, h.rise, h.last, h.reach⟩

/-- **The check of two rows decides as a check of all rows would.** -/
theorem decides : p.Decides width height (checked p.data p.base p.stride width height)
    (p.fits width height) := by
  show p.Decides width height (p.checkFit width height >>= fun _ => pure p) _
  unfold checkFit fits
  cases hspan : span p.base p.stride width height with
  | error fault =>
    obtain rfl := faultsOnlyWith_span p.base p.stride width height fault hspan
    refine .overflow fun h => ?_
    rw [(span_eq_ok_iff_within64 hbase hwidth hheight).mpr ⟨h, rfl⟩] at hspan
    cases hspan
  | ok found =>
    obtain ⟨h, rfl⟩ := (span_eq_ok_iff_within64 hbase hwidth hheight).mp hspan
    -- what is compared with the length is never negative
    have hinside : p.RowsInside width (max height 1)
        ↔ 0 ≤ min (p.base : Int) (p.index 0 (lastRow height)) ∧
          (p.reach width height).toNat ≤ p.data.size := by
      rw [rowsInside_iff]
      omega
    simp only [Outcome.ok_bind, Span.check]
    by_cases hrows : p.RowsInside width (max height 1)
    · rw [if_pos (hinside.mp hrows)]
      exact .accepted h hrows
    · rw [if_neg (mt hinside.mpr hrows)]
      exact .refused h hrows

end Signed

/-! ## §3. What a refusal asks for. -/

/-- Lengths of the buffers in which the rectangle is accepted, whatever they hold. -/
def acceptedLengths (p : Plane s) (width height : Nat) : Set Nat :=
  {n | ∀ data : Array (Sample s), data.size = n →
    checked data p.base p.stride width height = .ok { p with data := data }}

/-- **The length that a refusal asks for is the least that would do.** -/
theorem needed_isLeast (hbase : p.base < 2 ^ 63) (hwidth : width < 2 ^ 63) (hheight : height < 2 ^ 63)
    (h64 : p.Within64 width height) (hstart : ∀ y < max height 1, 0 ≤ p.index 0 y) :
    IsLeast (p.acceptedLengths width height) (p.reach width height).toNat := by
  -- where the rectangle lies does not depend on the buffer
  have haccepts : ∀ data : Array (Sample s),
      checked data p.base p.stride width height = .ok { p with data := data }
        ↔ p.reach width height ≤ data.size := by
    intro data
    have h := (decides (p := { p with data := data }) hbase hwidth hheight).accepted_iff.1
    rw [rowsInside_iff] at h
    refine h.trans ⟨fun ⟨_, _, hreach⟩ => hreach, fun hreach => ?_⟩
    exact ⟨⟨h64.rise, h64.last, h64.reach⟩, rows_start_iff.mp hstart, hreach⟩
  constructor
  · intro data hsize
    rw [haccepts, hsize]
    omega
  · intro n hn
    have hreach := (haccepts (Array.replicate n 0)).mp (hn _ Array.size_replicate)
    rw [Array.size_replicate] at hreach
    omega

/-! ## §4. Rows that can be used. -/

/-- Row `y` can be read and written: its start is found, and it lies inside the buffer. -/
structure RowUsable (p : Plane s) (width y : Nat) : Prop where
  inside : 0 ≤ p.index 0 y ∧ p.index 0 y + width ≤ p.data.size
  start : p.rowStart y = .ok (p.index 0 y).toNat
  read : p.row y width = .ok ((p.data.toList.drop (p.index 0 y).toNat).take width)
  written : ∀ samples : List (Sample s), samples.length = width →
    p.paintFrom p.data y [samples] = ⟨overwrite p.data (p.index 0 y).toNat samples, .ok ()⟩

/-- A row whose start is found can be used as far as the buffer goes. -/
theorem rowUsable_of_rowStart (hstart : p.rowStart y = .ok (p.index 0 y).toNat)
    (hinside : 0 ≤ p.index 0 y ∧ p.index 0 y + width ≤ p.data.size) : p.RowUsable width y where
  inside := hinside
  start := hstart
  read := by rw [row, hstart, Outcome.ok_bind, slice_of_le (by omega)]
  written := by
    rintro samples rfl
    rw [paintFrom, hstart]
    exact if_pos (by omega)

theorem rowUsable_of_holds (h : p.Holds width height) (hbase : p.base < 1 <<< 64) (hy : y < height) :
    p.RowUsable width y := by
  have hstart := h.start y hy
  have hroom := h.room y hy
  have hfound := rowStart_of_holds h hy
  rw [position_eq_index h hbase hy] at hstart hroom hfound
  exact rowUsable_of_rowStart hfound ⟨hstart, hroom⟩

/-! ## §5. Sizes below 2^63. -/

/-- What the two forms of the check decide about a rectangle, and what follows from it. -/
structure ChecksExactly (p : Plane s) (width height : Nat) : Prop where
  overflows : checked p.data p.base p.stride width height = .error .overflow
    ↔ ¬ p.Within64 width height
  fits_overflows : p.fits width height = .error .overflow ↔ ¬ p.Within64 width height
  accepts : checked p.data p.base p.stride width height = .ok p
    ↔ p.Within64 width height ∧ p.RowsInside width (max height 1)
  fits_accepts : p.fits width height = .ok true
    ↔ p.Within64 width height ∧ p.RowsInside width (max height 1)
  usable : p.Within64 width height → p.RowsInside width (max height 1) →
    ∀ y < height, p.RowUsable width y
  refuses : p.Within64 width height → ¬ p.RowsInside width (max height 1) →
    p.fits width height = .ok false ∧
    ∃ needed, checked p.data p.base p.stride width height
        = .error (.error (.bufferTooSmall needed p.data.size)) ∧
      ((∀ y < max height 1, 0 ≤ p.index 0 y) → IsLeast (p.acceptedLengths width height) needed)

/-- **The check of a rectangle whose sizes are below 2^63 is exact.** -/
theorem rectangle_checks_are_exact (p : Plane s) (width height : Nat) (hbase : p.base < 2 ^ 63)
    (hwidth : width < 2 ^ 63) (hheight : height < 2 ^ 63) : p.ChecksExactly width height := by
  have h := decides (p := p) hbase hwidth hheight
  refine ⟨h.overflow_iff.1, h.overflow_iff.2, h.accepted_iff.1, h.accepted_iff.2, ?_, ?_⟩
  · intro h64 hrows y hy
    have hholds := holds_of_fits hwidth hheight (h.accepted_iff.2.mpr ⟨h64, hrows⟩)
    exact rowUsable_of_holds hholds (by omega) hy
  · intro h64 hrows
    obtain ⟨hchecked, hfits⟩ := h.of_refused h64 hrows
    exact ⟨hfits, _, hchecked, needed_isLeast hbase hwidth hheight h64⟩

/-- Eight rows of sixteen samples, each one sample before the one above it, and one sample missing. -/
def cutRows : Plane .byte := ⟨Array.replicate 22 10, 7, -1⟩

/-- The rows reach up to position 23. -/
theorem cutRows_need_23_samples :
    cutRows.base < 2 ^ 63 ∧ 16 < 2 ^ 63 ∧ 8 < 2 ^ 63 ∧ cutRows.ChecksExactly 16 8 ∧
    cutRows.fits 16 8 = .ok false ∧ IsLeast (cutRows.acceptedLengths 16 8) 23 := by
  have hexact := rectangle_checks_are_exact cutRows 16 8 (by decide) (by decide) (by decide)
  have h64 : cutRows.Within64 16 8 := by
    by_contra h
    exact absurd (hexact.fits_overflows.mpr h) (by decide +kernel)
  have hrows : ¬ cutRows.RowsInside 16 (max 8 1) := by
    intro h
    exact absurd (hexact.fits_accepts.mpr ⟨h64, h⟩) (by decide +kernel)
  obtain ⟨hfits, needed, hchecked, hleast⟩ := hexact.refuses h64 hrows
  have hneeded : checked cutRows.data cutRows.base cutRows.stride 16 8
      = .error (.error (.bufferTooSmall 23 22)) := by rfl
  obtain rfl : 23 = needed := by
    rw [hneeded] at hchecked
    cases hchecked
    rfl
  refine ⟨by decide, by decide, by decide, hexact, hfits, hleast ?_⟩
  intro y hy
  rw [index_row]
  show 0 ≤ (7 : Int) + y * -1
  omega

/-! ## §6. Sizes from 2^63 on. -/

/-- Acceptance by either form of the check. -/
def Accepted (p : Plane s) (width height : Nat) : Prop :=
  checked p.data p.base p.stride width height = .ok p ∨ p.fits width height = .ok true

/-- Sizes that the check does not mistake for negative ones, or for which that does no harm. -/
def FaithfulSizes (p : Plane s) (width height : Nat) : Prop :=
  height = 0 ∨ width < 2 ^ 63 ∧ (height < 2 ^ 63 ∨ p.stride = 0)

theorem fits_of_accepted (h : p.Accepted width height) : p.fits width height = .ok true := by
  obtain hchecked | hfits := h
  · have hchecked : (p.checkFit width height >>= fun _ => pure p) = .ok p := hchecked
    rw [Outcome.check_bind_eq_ok_iff, checkFit, Outcome.bind_eq_ok_iff] at hchecked
    obtain ⟨⟨found, hspan, hcheck⟩, -⟩ := hchecked
    rw [Outcome.ofRefusal_eq_ok_iff] at hcheck
    rw [fits, hspan, Outcome.ok_bind, hcheck]
    rfl
  · exact hfits

/-- A base that would be read as negative is never accepted. -/
theorem signed_base_of_fits (hbase : p.base < 2 ^ 64) (h : p.fits width height = .ok true) :
    signed p.base = p.base := by
  obtain ⟨found, hspan, hlow, -⟩ := fits_eq_true_iff.mp h
  obtain ⟨-, rfl⟩ := span_eq_ok_iff.mp hspan
  dsimp only at hlow
  exact signed_of_nonneg (by omega) (by omega)

/-- Rows that all start at the same place can all be used, however many there are. -/
theorem rowUsable_of_stride_zero (hbase : signed p.base = p.base) (hstride : p.stride = 0)
    (hinside : p.base + width ≤ p.data.size) : p.RowUsable width y := by
  have hindex : p.index 0 y = p.base := by simp [index, hstride]
  have hrange := signed_range p.base
  refine rowUsable_of_rowStart ?_ (by omega)
  rw [rowStart, hstride, Int.mul_zero, hindex, hbase, asInt64_of_range (by decide) (by decide),
    Outcome.ok_bind, Int.add_zero, asInt64_of_range (by omega) (by omega), Outcome.ok_bind,
    decide_eq_true (Int.natCast_nonneg _), Outcome.require_true, Outcome.ok_bind]
  rfl

theorem rowUsable_of_faithful (hbase : p.base < 2 ^ 64) (hfits : p.fits width height = .ok true)
    (hsizes : p.FaithfulSizes width height) (hy : y < height) : p.RowUsable width y := by
  obtain rfl | ⟨hwidth, hheight | hstride⟩ := hsizes
  · omega
  · exact rowUsable_of_holds (holds_of_fits hwidth hheight hfits) (by omega) hy
  · have hsigned := signed_base_of_fits hbase hfits
    obtain ⟨found, hspan, -, hhigh⟩ := fits_eq_true_iff.mp hfits
    obtain ⟨-, rfl⟩ := span_eq_ok_iff.mp hspan
    dsimp only at hhigh
    rw [hstride, Int.mul_zero, Int.add_zero, max_self, hsigned, signed_of_lt hwidth] at hhigh
    exact rowUsable_of_stride_zero hsigned hstride (by omega)

/-- Rows that do not coincide do not fit into memory if there are 2^63 or more of them. -/
theorem height_lt_of_rowsInside (hbase : p.base < 2 ^ 64) (hdata : p.data.size < 2 ^ 63)
    (hfits : p.fits width height = .ok true) (hrows : p.RowsInside width height)
    (hstride : p.stride ≠ 0) : height < 2 ^ 63 := by
  have hsigned := signed_base_of_fits hbase hfits
  have hrange := signed_range p.base
  by_contra hheight
  obtain rfl | hmore : height = 2 ^ 63 ∨ 2 ^ 63 < height := by omega
  · -- this many rows are read as -2^63, and the number of steps gives way
    obtain ⟨found, hspan, -⟩ := fits_eq_true_iff.mp hfits
    obtain ⟨⟨hsteps, -⟩, -⟩ := span_eq_ok_iff.mp hspan
    exact absurd hsteps (by unfold InInt64; decide)
  · obtain ⟨hlow, hhigh⟩ := hrows (2 ^ 63) hmore
    rw [index_row] at hlow hhigh
    push_cast at hlow hhigh
    omega

/-- **Which sizes are accepted rightly.**  Whatever the sizes, if the check accepts a rectangle then
its rows lie inside the buffer exactly if the sizes are faithful; all of them can then be used. -/
theorem accepted_rows_inside_iff (p : Plane s) (width height : Nat) (hbase : p.base < 2 ^ 64)
    (hdata : p.data.size < 2 ^ 63) (haccepted : p.Accepted width height) :
    (p.RowsInside width height ↔ p.FaithfulSizes width height) ∧
      (p.FaithfulSizes width height → ∀ y < height, p.RowUsable width y) := by
  have hfits := fits_of_accepted haccepted
  refine ⟨⟨?_, ?_⟩, fun hsizes y hy => rowUsable_of_faithful hbase hfits hsizes hy⟩
  · intro hrows
    obtain rfl | hpos := Nat.eq_zero_or_pos height
    · exact .inl rfl
    · have hfirst := hrows 0 hpos
      refine .inr ⟨by omega, ?_⟩
      by_cases hstride : p.stride = 0
      · exact .inr hstride
      · exact .inl (height_lt_of_rowsInside hbase hdata hfits hrows hstride)
  · intro hsizes y hy
    exact (rowUsable_of_faithful hbase hfits hsizes hy).inside

/-- Eight samples, read over and over by as many rows as a size can count. -/
def repeatedRow : Plane .byte := ⟨Array.replicate 8 1, 0, 0⟩

/-- With a stride of zero the number of rows does no harm. -/
theorem repeatedRow_usable :
    repeatedRow.base < 2 ^ 64 ∧ repeatedRow.data.size < 2 ^ 63 ∧
    repeatedRow.Accepted 8 (2 ^ 64 - 1) ∧ repeatedRow.RowsInside 8 (2 ^ 64 - 1) ∧
    ∀ y < 2 ^ 64 - 1, repeatedRow.RowUsable 8 y := by
  have haccepted : repeatedRow.Accepted 8 (2 ^ 64 - 1) := .inr (by decide +kernel)
  have hsizes : repeatedRow.FaithfulSizes 8 (2 ^ 64 - 1) := .inr ⟨by decide, .inr rfl⟩
  obtain ⟨hinside, husable⟩ :=
    accepted_rows_inside_iff repeatedRow 8 (2 ^ 64 - 1) (by decide) (by decide) haccepted
  exact ⟨by decide, by decide, haccepted, hinside.mpr hsizes, husable hsizes⟩

/-- The same samples, read one position further on by every row. -/
def climbingRows : Plane .byte := ⟨Array.replicate 8 1, 4, 1⟩

/-- **A rectangle can be accepted that no buffer holds.**  One row of 2^64 - 1 samples in a buffer of
eight, which then cannot be read, and 2^64 - 1 rows of one sample. -/
theorem oversized_rectangles_accepted :
    (checked repeatedRow.data repeatedRow.base repeatedRow.stride (2 ^ 64 - 1) 1 = .ok repeatedRow ∧
      repeatedRow.fits (2 ^ 64 - 1) 1 = .ok true ∧ ¬ repeatedRow.RowsInside (2 ^ 64 - 1) 1 ∧
      repeatedRow.row 0 (2 ^ 64 - 1) = .error .index) ∧
    climbingRows.fits 1 (2 ^ 64 - 1) = .ok true ∧ ¬ climbingRows.RowsInside 1 (2 ^ 64 - 1) := by
  refine ⟨⟨by rfl, by decide +kernel, ?_, by decide +kernel⟩, by decide +kernel, ?_⟩
  · intro hrows
    have hfirst := hrows 0 (by decide)
    exact absurd hfirst.2 (by decide)
  · intro hrows
    have hlater := hrows 4 (by decide)
    exact absurd hlater.2 (by decide)

end Plane

end PixelKernels
