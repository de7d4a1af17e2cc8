/-
  PixelKernels.Proofs.PrefixCosts
  ───────────────────────────────
  **A BOUNDED COST IS THE COST OF THE FIRST ROWS, AND OF NO ROW MORE THAN IT
  TAKES.**

  The cost of the first rows only grows with their number, `Sad.exactRows`.
  The portable kernel answers with it at the first row after which it is above
  the bound, and at the last row if it never is.

    • Which row that is, is a matter of the sums up to there
      (`Sad.StopsAfter.congr`).  So whatever no row up to there reads, the
      samples of all later rows among it, may be anything
      (`Sad.Portable.stopsAt_of_stopsAfter`).
    • A higher bound never stops the walk earlier (`Sad.StopsAfter.le_of_le`),
      so it never lowers the answer.  The wide kernel does not look at the
      bound, so at every level the answers rise with it.
-/
import PixelKernels.Proofs.BoundedCosts

namespace PixelKernels

open Finset
open Sad (exactRows)

variable {s : Storage} {depth : Depth} {block : BlockSize}

/-! ## §1. The row at which a sum is cut. -/

namespace Sad

variable {sumOf : Nat → Nat} {bound height k : Nat}

/-- A sum is stopped after the first row that takes it above the bound. -/
theorem stopsAfter_of_isLeast (hzero : sumOf 0 ≤ bound)
    (h : IsLeast {k | k ∈ Icc 1 height ∧ bound < sumOf k} k) : StopsAfter sumOf bound height k where
  le_height := (mem_Icc.mp h.1.1).2
  below := by
    intro j hj
    by_contra habove
    -- a sum above the bound is not the empty one, so its row would have come first
    have hpos : j ≠ 0 := by
      rintro rfl
      exact habove hzero
    have hheight := (mem_Icc.mp h.1.1).2
    have hfirst := h.2 ⟨mem_Icc.mpr ⟨by omega, by omega⟩, Nat.lt_of_not_le habove⟩
    omega
  above := fun _ => h.1.2

/-- A sum that is never above the bound is not stopped before the end. -/
theorem stopsAfter_of_le (hzero : sumOf 0 ≤ bound) (h : ∀ k ∈ Icc 1 height, sumOf k ≤ bound) :
    StopsAfter sumOf bound height height where
  le_height := Nat.le_refl height
  below := by
    intro j hj
    rcases Nat.eq_zero_or_pos j with rfl | hpos
    · exact hzero
    · exact h j (mem_Icc.mpr ⟨hpos, Nat.le_of_lt hj⟩)
  above := fun h => absurd h (Nat.lt_irrefl height)

/-- **At least one row is added up.** -/
theorem StopsAfter.mem_Icc (h : StopsAfter sumOf bound height k) (hzero : sumOf 0 ≤ bound)
    (hheight : 0 < height) : k ∈ Icc 1 height := by
  refine Finset.mem_Icc.mpr ⟨Nat.one_le_iff_ne_zero.mpr ?_, h.le_height⟩
  rintro rfl
  exact Nat.not_lt.mpr hzero (h.above hheight)

end Sad

/-! ## §2. What the first rows read. -/

/-- Other samples for a plane, the same in every cell that one of its first rows reads. -/
structure Plane.KeepsRows (p : Plane s) (width rows : Nat) (data : Array (Sample s)) : Prop where
  size : data.size = p.data.size
  kept : ∀ x < width, ∀ y < rows, data[(p.index x y).toNat]? = p.data[(p.index x y).toNat]?

namespace Plane

variable {p : Plane s} {data : Array (Sample s)} {width height rows : Nat}

/-- Whether a rectangle lies inside a plane does not depend on the samples. -/
theorem fits_with_data (hsize : data.size = p.data.size) :
    ({ p with data := data } : Plane s).fits width height = p.fits width height := by
  unfold fits
  rw [hsize]

/-- The first rows show what they showed before. -/
theorem KeepsRows.entry_eq (h : p.KeepsRows width rows data) {x y : Nat} (hx : x < width)
    (hy : y < rows) : ({ p with data := data } : Plane s).entry x y = p.entry x y := by
  have hkept := h.kept x hx y hy
  show ((data.getD (p.index x y).toNat 0).toNat : Int) = _
  rw [entry, Array.getD_eq_getD_getElem?, Array.getD_eq_getD_getElem?, hkept]

end Plane

/-- **The cost of the first rows is not changed by what they do not read.** -/
theorem Sad.exactRows_congr {source reference : Plane s} {width rows i : Nat}
    {data data' : Array (Sample s)} (hs : source.KeepsRows width rows data)
    (hr : reference.KeepsRows width rows data') (hi : i ≤ rows) :
    exactRows width i { source with data := data } { reference with data := data' }
      = exactRows width i source reference := by
  unfold exactRows
  refine sum_congr rfl fun y hy => sum_congr rfl fun x hx => ?_
  have hx := mem_range.mp hx
  have hy : y < rows := Nat.lt_of_lt_of_le (mem_range.mp hy) hi
  rw [hs.entry_eq hx hy, hr.entry_eq hx hy]

/-! ## §3. The portable kernel. -/

namespace Sad

/-- A cost that is answered under every bound, and that a higher bound never lowers. -/
def RisesWithBound (run : Nat → Outcome Nat) : Prop :=
  ∀ bound bound', bound ≤ bound' →
    ∃ answer answer', run bound = .ok answer ∧ run bound' = .ok answer' ∧ answer ≤ answer'

/-- A cost that is, under every bound, the cost of some first rows of the block. -/
def AddsUpRows (block : BlockSize) (source reference : Plane s) (run : Nat → Outcome Nat) : Prop :=
  ∀ bound, ∃ k ∈ Icc 1 block.height, run bound = .ok (exactRows block.width k source reference)

end Sad

namespace Sad.Portable

/-- The portable kernel answers with the cost of the first rows, and none of its other samples has
a part in that. -/
structure StopsAt (block : BlockSize) (source reference : Plane s) (bound rows : Nat) : Prop where
  answer : sadBounded block.width block.height source reference bound
    = .ok (exactRows block.width rows source reference)
  unread : ∀ data data', source.KeepsRows block.width rows data →
    reference.KeepsRows block.width rows data' →
      sadBounded block.width block.height { source with data := data }
          { reference with data := data' } bound
        = .ok (exactRows block.width rows source reference)

/-- How the bound cuts the cost that the portable kernel answers with. -/
structure CutsAtBound (block : BlockSize) (source reference : Plane s) : Prop where
  /-- The costs of the first rows only grow. -/
  grows : Monotone fun k => exactRows block.width k source reference
  /-- The answer is the first of them that is above the bound … -/
  least : ∀ bound k,
    IsLeast {k | k ∈ Icc 1 block.height ∧ bound < exactRows block.width k source reference} k →
      StopsAt block source reference bound k
  /-- … and the last of them if none is. -/
  whole : ∀ bound,
    (∀ k ∈ Icc 1 block.height, exactRows block.width k source reference ≤ bound) →
      StopsAt block source reference bound block.height
  /-- So some first rows are always added up, and under a higher bound no fewer. -/
  rows : AddsUpRows block source reference (sadBounded block.width block.height source reference)
  rises : RisesWithBound (sadBounded block.width block.height source reference)

section Fits

variable {source reference : Plane s} (hsource : source.base < 1 <<< 64)
  (hreference : reference.base < 1 <<< 64) (hs : source.fits block.width block.height = .ok true)
  (hr : reference.fits block.width block.height = .ok true)
include hsource hreference hs hr

/-- The portable bounded cost, as a sum of rows that are read from the buffers. -/
theorem sadBounded_eq_exactRows (bound : Nat) :
    ∃ k, StopsAfter (fun k => exactRows block.width k source reference) bound block.height k ∧
      sadBounded block.width block.height source reference bound
        = .ok (exactRows block.width k source reference) := by
  have hw := block.width_le
  have hh := block.height_le
  have hsholds := Plane.holds_of_fits (by omega) (by omega) hs
  have hrholds := Plane.holds_of_fits (by omega) (by omega) hr
  obtain ⟨k, hstops, hanswer⟩ := sadBounded_of_fits hw hh hs hr bound
  have hexact : ∀ i ≤ k, cost block.width i source.pixel reference.pixel
      = exactRows block.width i source reference := fun i hi =>
    cost_eq_exactRows hsholds hrholds hsource hreference (hi.trans hstops.le_height)
  refine ⟨k, hstops.congr hexact, ?_⟩
  rw [hanswer, hexact k (Nat.le_refl k)]

/-- **The kernel stops where the sums do, with or without the rows that it does not get to.** -/
theorem stopsAt_of_stopsAfter {bound k : Nat}
    (h : StopsAfter (fun k => exactRows block.width k source reference) bound block.height k) :
    StopsAt block source reference bound k where
  answer := by
    obtain ⟨j, hstops, hanswer⟩ := sadBounded_eq_exactRows hsource hreference hs hr bound
    rw [hanswer, hstops.unique h]
  unread := by
    intro data data' hdata hdata'
    have hfits := (Plane.fits_with_data hdata.size).trans hs
    have hfits' := (Plane.fits_with_data hdata'.size).trans hr
    have hbase : ({ source with data := data } : Plane s).base < 1 <<< 64 := hsource
    have hbase' : ({ reference with data := data' } : Plane s).base < 1 <<< 64 := hreference
    obtain ⟨j, hstops, hanswer⟩ := sadBounded_eq_exactRows hbase hbase' hfits hfits' bound
    -- the sums that decide where the walk stops are the same as before
    have hsame := h.congr fun i hi => (exactRows_congr hdata hdata' hi).symm
    rw [hanswer, hstops.unique hsame, exactRows_congr hdata hdata' (Nat.le_refl k)]

theorem addsUpRows :
    AddsUpRows block source reference (sadBounded block.width block.height source reference) := by
  intro bound
  obtain ⟨k, hstops, hanswer⟩ := sadBounded_eq_exactRows hsource hreference hs hr bound
  exact ⟨k, hstops.mem_Icc (Nat.zero_le bound) block.height_pos, hanswer⟩

/-- **A walk that is stopped later has added up more.** -/
theorem risesWithBound :
    RisesWithBound (sadBounded block.width block.height source reference) := by
  intro bound bound' hle
  obtain ⟨j, hj, hanswer⟩ := sadBounded_eq_exactRows hsource hreference hs hr bound
  obtain ⟨k, hk, hanswer'⟩ := sadBounded_eq_exactRows hsource hreference hs hr bound'
  exact ⟨_, _, hanswer, hanswer', monotone_sum_rows _ (hj.le_of_le hk hle)⟩

theorem cutsAtBound : CutsAtBound block source reference where
  grows := monotone_sum_rows _
  least := fun bound _ hleast => stopsAt_of_stopsAfter hsource hreference hs hr
    (stopsAfter_of_isLeast (Nat.zero_le bound) hleast)
  whole := fun bound hle => stopsAt_of_stopsAfter hsource hreference hs hr
    (stopsAfter_of_le (Nat.zero_le bound) hle)
  rows := addsUpRows hsource hreference hs hr
  rises := risesWithBound hsource hreference hs hr

end Fits

end Sad.Portable

/-! ## §4. Any level. -/

/-- The wide kernel answers the same under every bound, even where its lanes may overflow. -/
theorem Sad.Wide.risesWithBound {source reference : Plane s}
    (hs : source.fits block.width block.height = .ok true)
    (hr : reference.fits block.width block.height = .ok true) :
    RisesWithBound (sadBounded block.width block.height source reference) := by
  intro bound bound' _
  have hanswer := sad_of_fits_eq_total block.width_le block.height_le hs hr
  exact ⟨_, _, hanswer, hanswer, Nat.le_refl _⟩

namespace Kernels

/-- What a level makes of the bound: the kernel that it selects answers on all planes that hold the
block, and never lower for a higher bound; what the entry point lets through costs whole rows, too. -/
structure RisesWithBound (kernels : Kernels) (depth : Depth) (block : BlockSize)
    (source reference : Plane s) : Prop where
  selected : ∀ table run, kernels.table s depth = .ok table → table.sadBoundedAt block = .ok run →
    Sad.RisesWithBound (run source reference)
  entry : ∀ run, kernels.admitSadBounded depth block source reference = .ok run →
    Sad.RisesWithBound (kernels.sadBounded depth block source reference) ∧
      Sad.AddsUpRows block source reference (kernels.sadBounded depth block source reference)

section Answers

variable {source reference : Plane s} (hsource : source.base < 1 <<< 64)
  (hreference : reference.base < 1 <<< 64)
include hsource hreference

/-- Neither kernel answers lower for a higher bound. -/
theorem run_risesWithBound (processor : Processor) (hs : source.fits block.width block.height = .ok true)
    (hr : reference.fits block.width block.height = .ok true) :
    Sad.RisesWithBound ((if runsWide processor block then Sad.Wide.sadBounded block.width block.height
      else Sad.Portable.sadBounded block.width block.height) source reference) := by
  by_cases hwide : runsWide processor block = true
  · rw [if_pos hwide]
    exact Sad.Wide.risesWithBound hs hr
  · rw [if_neg hwide]
    exact Sad.Portable.risesWithBound hsource hreference hs hr

/-- Where the samples are in range, either adds up whole rows. -/
theorem run_addsUpRows (processor : Processor) (hs : Admits depth block source)
    (hr : Admits depth block reference) :
    Sad.AddsUpRows block source reference
      ((if runsWide processor block then Sad.Wide.sadBounded block.width block.height
        else Sad.Portable.sadBounded block.width block.height) source reference) := by
  by_cases hwide : runsWide processor block = true
  · -- the wide kernel adds up all of them, whatever the bound
    intro bound
    have hanswer := run_sad processor hs hr
    rw [if_pos hwide, cost_eq_exact hs hr hsource hreference] at hanswer
    rw [if_pos hwide]
    exact ⟨block.height, mem_Icc.mpr ⟨block.height_pos, Nat.le_refl _⟩, hanswer⟩
  · rw [if_neg hwide]
    exact Sad.Portable.addsUpRows hsource hreference hs.fits hr.fits

theorem risesWithBound {kernels : Kernels} {processor : Processor} (h : kernels.Selects processor)
    (hs : source.fits block.width block.height = .ok true)
    (hr : reference.fits block.width block.height = .ok true) :
    kernels.RisesWithBound depth block source reference where
  selected := by
    intro table run htable hrun
    by_cases hdepth : depth.storage = s
    · obtain ⟨found, hfound, _, hholds⟩ := h hdepth
      obtain rfl : found = table := Except.ok.inj (hfound.symm.trans htable)
      rw [Table.sadBoundedAt_eq hholds, Outcome.check_bind_eq_ok_iff] at hrun
      obtain rfl := Except.ok.inj hrun.2
      exact run_risesWithBound hsource hreference processor hs hr
    · rw [table_of_ne kernels hdepth] at htable
      cases htable
  entry := by
    intro run hrun
    obtain ⟨_, _, hs', hr'⟩ := admits_of_admitSadBounded h hrun
    obtain ⟨_, _, hchosen⟩ := (admitSadBounded_iff h).mp hrun
    -- past the checks, the entry point is the kernel
    have hentry : kernels.sadBounded depth block source reference = run source reference := by
      funext bound
      rw [sadBounded, hrun]
      rfl
    rw [hentry, ← hchosen]
    exact ⟨run_risesWithBound hsource hreference processor hs hr,
      run_addsUpRows hsource hreference processor hs' hr'⟩

end Answers

end Kernels

/-- **On all planes that hold a block, the portable bounded cost is cut by the bound, and at every level
a bounded cost rises with it.** -/
theorem bounded_costs_are_cut (processor : Processor) (level : CpuLevel) :
    ∃ kernels, Kernels.atLevel processor level = .ok kernels ∧
      ∀ (s : Storage) (depth : Depth) (block : BlockSize) (source reference : Plane s),
        source.base < 1 <<< 64 → reference.base < 1 <<< 64 →
          source.fits block.width block.height = .ok true →
            reference.fits block.width block.height = .ok true →
              Sad.Portable.CutsAtBound block source reference ∧
                kernels.RisesWithBound depth block source reference := by
  obtain ⟨kernels, hkernels, hselects⟩ := Kernels.atLevel_selects processor level
  refine ⟨kernels, hkernels, ?_⟩
  intro s depth block source reference hsource hreference hs hr
  exact ⟨Sad.Portable.cutsAtBound hsource hreference hs hr,
    Kernels.risesWithBound hsource hreference hselects hs hr⟩

/-- Four rows of four samples, each two samples further on than the one above it. -/
def steppedRows : Plane .byte := ⟨Array.replicate 10 9, 0, 2⟩

/-- Other samples where only the fourth of these rows reads. -/
def otherSteps : Array (Sample .byte) := Array.replicate 8 9 ++ #[255, 0]

/-- Under a bound that two rows reach but do not exceed, the third is added up and the fourth may be
anything. -/
theorem bounded_cost_of_steppedRows :
    steppedRows.base < 1 <<< 64 ∧ darkRow.base < 1 <<< 64 ∧
      steppedRows.fits BlockSize.b4x4.width BlockSize.b4x4.height = .ok true ∧
      darkRow.fits BlockSize.b4x4.width BlockSize.b4x4.height = .ok true ∧
      Sad.Portable.sadBounded 4 4 steppedRows darkRow 72 = .ok 108 ∧
      Sad.Portable.sadBounded 4 4 { steppedRows with data := otherSteps } darkRow 72 = .ok 108 ∧
      ∃ kernels run, Kernels.atLevel .full .v3 = .ok kernels ∧
        kernels.admitSadBounded .eight .b4x4 steppedRows darkRow = .ok run ∧
        Sad.RisesWithBound (kernels.sadBounded .eight .b4x4 steppedRows darkRow) := by
  obtain ⟨kernels, hkernels, hcalls⟩ := bounded_costs_are_cut .full .v3
  have hselects : kernels.Selects _ := Kernels.selects_of_atLevel hkernels
  have hfits : steppedRows.fits BlockSize.b4x4.width BlockSize.b4x4.height = .ok true := by
    decide +kernel
  have hfits' : darkRow.fits BlockSize.b4x4.width BlockSize.b4x4.height = .ok true := by
    decide +kernel
  obtain ⟨hcuts, hrises⟩ := hcalls .byte .eight .b4x4 steppedRows darkRow (by decide) (by decide)
    hfits hfits'
  have hchecks : Kernels.checkSadBounded .eight .b4x4 steppedRows darkRow = .ok () :=
    Kernels.checkSadBounded_eq_ok_iff.mpr ⟨by decide, ⟨hfits, Kernels.inRange_eight _⟩,
      hfits', Kernels.inRange_eight _⟩
  have hrun := (Kernels.admitSadBounded_iff hselects).mpr ⟨rfl, hchecks, rfl⟩
  have hleast : IsLeast {k | k ∈ Icc 1 BlockSize.b4x4.height ∧
      72 < exactRows BlockSize.b4x4.width k steppedRows darkRow} 3 := by
    refine ⟨⟨by decide, by decide +kernel⟩, ?_⟩
    rintro k ⟨hk, habove⟩
    by_contra hlt
    exact absurd habove ((by decide +kernel : ∀ k < 3,
      ¬ 72 < exactRows BlockSize.b4x4.width k steppedRows darkRow) k (by omega))
  have hthree : exactRows BlockSize.b4x4.width 3 steppedRows darkRow = 108 := by decide +kernel
  have hstops := hcuts.least 72 3 hleast
  have hkept : steppedRows.KeepsRows BlockSize.b4x4.width 3 otherSteps :=
    ⟨by decide +kernel, by decide +kernel⟩
  have hanswer := hstops.answer
  have hunread := hstops.unread otherSteps darkRow.data hkept ⟨rfl, fun _ _ _ _ => rfl⟩
  rw [hthree] at hanswer hunread
  exact ⟨by decide, by decide, hfits, hfits', hanswer, hunread, kernels, _, hkernels, hrun,
    (hrises.entry _ hrun).1⟩

end PixelKernels
