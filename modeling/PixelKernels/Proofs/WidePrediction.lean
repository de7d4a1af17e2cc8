/-
  PixelKernels.Proofs.WidePrediction
  ──────────────────────────────────
  **THE WIDE KERNELS PREDICT THE CELLS OF THE CLOSED FORM.**

  At sides 16 and 32 a row is a whole number of registers, and registers laid
  end to end are the row again (`rowOf_windows`).  So a kernel that spreads,
  copies or clips lane by lane does the same to the row.

  For tm two things are left.  Packing alternates the halves of its operands
  and the permutation puts them back, so that a lane ends where it began; and
  the sum of a sample and a difference of two stays far inside a signed
  16-bit lane, so that clipping sees the true number.
-/
import PixelKernels.Intra.Wide
import PixelKernels.Proofs.LaneSums
import PixelKernels.Proofs.PortablePrediction

namespace PixelKernels

open Register (window)

variable {s : Storage}

/-! ## §1. Lanes that are clipped. -/

namespace Register

theorem toList_window {k : Nat} (n : Nat) (f : Nat → BitVec k) (start : Nat) :
    (window n f start).toList = (List.range n).map fun i => f (start + i) := by
  apply List.ext_getElem (by simp)
  intro i hi _
  simp [window]

/-- Saturation moves a number to the nearest byte. -/
theorem toNat_saturateByte (x : BitVec 16) : (saturateByte x).toNat = min x.toInt.toNat 255 := by
  have hcases := x.toInt_eq_toNat_cond
  have hx := x.isLt
  unfold saturateByte
  -- below the bytes, above them, or one of them
  by_cases hneg : x.toInt < 0
  · rw [if_pos hneg]
    simp
    omega
  · rw [if_neg hneg]
    by_cases hbig : 255 < x.toInt
    · rw [if_pos hbig]
      simp
      omega
    · rw [if_neg hbig, BitVec.toNat_setWidth]
      split at hcases <;> omega

end Register

namespace Intra.Wide

/-- The lane that a packed byte comes from, after the quarters are put in order. -/
theorem packedOrder_lane (i : Fin 16) :
    8 * ((8 * (packedOrder ⟨i.val / 8, by omega⟩).val + i.val % 8) / 16)
      + (8 * (packedOrder ⟨i.val / 8, by omega⟩).val + i.val % 8) % 8 = i.val := by
  -- sixteen lanes, each checked
  revert i
  decide

/-- Packing and permuting leave every lane where it was. -/
theorem getElem_clipBytes (sum : Register 16 16) {i : Nat} (hi : i < 16) :
    (clipBytes sum)[i] = Register.saturateByte sum[i] := by
  simp only [clipBytes, Register.lowHalf, Register.selectQuarters, Register.packUnsigned,
    Vector.getElem_ofFn, ite_self]
  congr 2
  exact packedOrder_lane ⟨i, hi⟩

/-- Maximum and minimum in signed order move a number to the nearest point of the range. -/
theorem toNat_getElem_clipWords {max : Nat} (hmax : max < 2 ^ 15) (sum : Register 16 16) {i : Nat}
    (hi : i < 16) :
    (clipWords (BitVec.ofNat 16 max) sum)[i].toNat = min sum[i].toInt.toNat max := by
  have htop : (BitVec.ofNat 16 max).toNat = max := by
    rw [BitVec.toNat_ofNat, Nat.mod_eq_of_lt (by omega)]
  have htopInt : (BitVec.ofNat 16 max).toInt = max := by
    rw [BitVec.toInt_eq_toNat_of_lt (by omega), htop]
  have hcases := sum[i].toInt_eq_toNat_cond
  have hentry : (clipWords (BitVec.ofNat 16 max) sum)[i]
      = if (max : Int) < (if sum[i].toInt < 0 then 0#16 else sum[i]).toInt then BitVec.ofNat 16 max
        else if sum[i].toInt < 0 then 0#16 else sum[i] := by
    simp [clipWords, Register.minSigned, Register.maxSigned, Register.zero, Register.splat, htopInt]
  rw [hentry]
  -- below the range, above it, or in it
  by_cases hneg : sum[i].toInt < 0
  · rw [if_pos hneg, if_neg (by rw [BitVec.toInt_zero]; omega), BitVec.toNat_zero]
    omega
  · rw [if_neg hneg]
    by_cases hbig : (max : Int) < sum[i].toInt
    · rw [if_pos hbig, htop]
      omega
    · rw [if_neg hbig]
      split at hcases <;> omega

/-! ## §2. Rows of registers. -/

/-- **Registers laid end to end are the row that they were cut from.** -/
theorem rowOf_windows {k : Nat} (m count : Nat) (f : Nat → BitVec k) :
    rowOf ((List.range count).map fun i => window m f (m * i)) = (List.range (m * count)).map f := by
  -- induction on the number of registers; the last one holds the last `m` positions
  induction count with
  | zero => rfl
  | succ count ih =>
    have hlast : rowOf [window m f (m * count)] = (List.range m).map fun i => f (m * count + i) := by
      rw [rowOf, List.flatMap_singleton, Register.toList_window]
    rw [List.range_succ, List.map_append, Nat.mul_succ, List.range_add, List.map_append, ← ih,
      List.map_map]
    refine (List.flatMap_append).trans (congrArg _ ?_)
    exact hlast

/-- A side of a block that the wide kernels are used at. -/
def IsWideSide (n : Nat) : Prop := n = 16 ∨ n = 32

theorem IsWideSide.isSide {n : Nat} (h : IsWideSide n) : IsSide n := by
  rcases h with rfl | rfl
  · exact ⟨4, by decide, by decide, rfl⟩
  · exact ⟨5, by decide, by decide, rfl⟩

/-- A row is a whole number of registers. -/
theorem lanesPerStore_mul {n : Nat} (h : IsWideSide n) (s : Storage) :
    lanesPerStore n s * (n / lanesPerStore n s) = n := by
  rcases h with rfl | rfl <;> cases s <;> rfl

theorem splatRow_eq {n : Nat} (h : IsWideSide n) (v : Sample s) :
    splatRow n v = List.replicate n v := by
  have hwindow : ∀ start, window (lanesPerStore n s) (fun _ => v) start
      = Register.splat (lanesPerStore n s) v := by
    intro start
    apply Vector.ext
    intro i hi
    simp [Register.splat, window]
  have hrow := rowOf_windows (lanesPerStore n s) (n / lanesPerStore n s) fun _ => v
  simp only [hwindow, List.map_const', List.length_range, lanesPerStore_mul h s] at hrow
  exact hrow

theorem fill_eq_tabulate {n : Nat} (h : IsWideSide n) (v : Sample s) :
    fill n v = tabulate n fun _ _ => v := by
  rw [fill, splatRow_eq h, tabulate_const]

theorem loadRow_map_range {n : Nat} (h : IsWideSide n) (f : Nat → Sample s) :
    loadRow n ((List.range n).map f)
      = .ok ((List.range (n / lanesPerStore n s)).map fun i =>
          window (lanesPerStore n s) f (lanesPerStore n s * i)) := by
  apply Outcome.mapM_of_forall_ok
  intro i hi
  apply Register.load_map_range
  -- register `i` ends inside the row
  have hi := List.mem_range.mp hi
  calc lanesPerStore n s * i + lanesPerStore n s = lanesPerStore n s * (i + 1) :=
        (Nat.mul_succ _ i).symm
    _ ≤ lanesPerStore n s * (n / lanesPerStore n s) := Nat.mul_le_mul_left _ hi
    _ = n := lanesPerStore_mul h s

/-! ## §3. Flat and straight kernels. -/

variable {n max : Nat} {edge : IntraEdge s}

section Flat

variable (hside : IsWideSide n) (hmax : max ∈ s.maxima)
include hside hmax

theorem dc_eq_predicted (h : edge.Supplies .dc n max) :
    dc n edge = .ok (predicted .dc n edge max) := by
  rw [dc, Portable.dc_mean hside.isSide hmax h, fill_eq_tabulate hside]
  rfl

theorem dcTop_eq_predicted (h : edge.Supplies .dcTop n max) :
    dcTop n edge = .ok (predicted .dcTop n edge max) := by
  rw [dcTop, Portable.dcTop_mean hside.isSide hmax h, fill_eq_tabulate hside]
  rfl

theorem dcLeft_eq_predicted (h : edge.Supplies .dcLeft n max) :
    dcLeft n edge = .ok (predicted .dcLeft n edge max) := by
  rw [dcLeft, Portable.dcLeft_mean hside.isSide hmax h, fill_eq_tabulate hside]
  rfl

/-- Bytes have one middle, and it is the one that the kernel has built in. -/
theorem dc128_eq_predicted : dc128 n max s = .ok (predicted .dc128 n edge max) := by
  cases s with
  | byte =>
    obtain rfl : max = 255 := by simpa [Storage.maxima] using hmax
    rw [dc128, fill_eq_tabulate hside]
    rfl
  | word =>
    rw [dc128, Portable.ofMax_of_mem hmax, Outcome.ok_bind, fill_eq_tabulate hside]
    rfl

end Flat

theorem v_eq_predicted (hside : IsWideSide n) (h : edge.Supplies .v n max) :
    v n edge = .ok (predicted .v n edge max) := by
  rw [← Portable.v_eq_predicted h, v, Portable.v,
    IntraEdge.aboveRow_of_le (k := n) h.above_size, Outcome.ok_bind, Outcome.ok_bind,
    loadRow_map_range hside, Outcome.ok_bind, rowOf_windows, lanesPerStore_mul hside s]

theorem h_eq_predicted (hside : IsWideSide n) (hl : edge.Supplies .h n max) :
    h n edge = .ok (predicted .h n edge max) := by
  have hsplat : splatRow (s := s) n = List.replicate n := funext (splatRow_eq hside)
  rw [← Portable.h_eq_predicted hl, h, Portable.h, hsplat]

/-! ## §4. Above plus left minus corner. -/

/-- A sample, zero-extended to a signed 16-bit lane, is still the same number. -/
theorem toInt_setWidth_sample {v : Sample s} (hv : v.toNat ≤ 4095) :
    (v.setWidth 16).toInt = v.toNat := by
  have hnat : (v.setWidth 16).toNat = v.toNat := by
    rw [BitVec.toNat_setWidth, Nat.mod_eq_of_lt (by omega)]
  rw [BitVec.toInt_eq_toNat_of_lt (by omega), hnat]

theorem slope_eq {l c : Sample s} (hl : l.toNat ≤ 4095) (hc : c.toNat ≤ 4095) :
    slope l c = .ok (BitVec.ofInt 16 (l.toNat - c.toNat : Int)) := by
  rw [slope, toInt_setWidth_sample hl, toInt_setWidth_sample hc, asInt16, if_pos (by omega)]

/-- Nothing of a sample plus a difference of samples is lost in a signed 16-bit lane. -/
theorem toInt_add_slope {a l c : Sample s} (ha : a.toNat ≤ 4095) (hl : l.toNat ≤ 4095)
    (hc : c.toNat ≤ 4095) :
    (a.setWidth 16 + BitVec.ofInt 16 (l.toNat - c.toNat : Int)).toInt
      = a.toNat + (l.toNat - c.toNat : Int) := by
  have hdiff : (l.toNat - c.toNat : Int).bmod (2 ^ 16) = l.toNat - c.toNat :=
    Int.bmod_eq_of_le (by omega) (by omega)
  rw [BitVec.toInt_add, toInt_setWidth_sample ha, BitVec.toInt_ofInt, hdiff,
    Int.bmod_eq_of_le (by omega) (by omega)]

/-- The samples above from column `start` on, in 16-bit lanes. -/
def wideWindow (f : Nat → Sample s) (start : Nat) : Register 16 16 :=
  window 16 (fun i => (f i).setWidth 16) start

theorem widenedTop_map_range {i : Nat} (f : Nat → Sample s) (hi : 16 * i + 16 ≤ n) :
    widenedTop ((List.range n).map f) i = .ok (wideWindow f (16 * i)) := by
  rw [widenedTop, Register.load_map_range hi, Outcome.ok_bind]
  apply congrArg Except.ok
  apply Vector.ext
  intro j hj
  simp [Register.widen, wideWindow, window]

/-- **A row of tm is clipped lane by lane to what the closed form says.** -/
theorem tmRow_eq (hn : 16 ∣ n) (hmax : max ∈ s.maxima) {f : Nat → Sample s} {l c : Sample s}
    (hf : ∀ i < n, (f i).toNat ≤ max) (hl : l.toNat ≤ max) (hc : c.toNat ≤ max) :
    tmRow max (BitVec.ofInt 16 (l.toNat - c.toNat : Int))
        ((List.range (n / 16)).map fun i => wideWindow f (16 * i)) s
      = (List.range n).map fun i =>
          BitVec.ofNat s.bits (min ((f i).toNat + (l.toNat - c.toNat : Int)).toNat max) := by
  have hsmall := maxima_le hmax
  have hlt := maxima_lt hmax
  obtain ⟨count, rfl⟩ := hn
  rw [Nat.mul_div_cancel_left count (by decide), ← rowOf_windows]
  -- the sum in lane `j` of register `i`, as a number
  have hsum : ∀ i < count, ∀ j (hj : j < 16),
      ((wideWindow f (16 * i)).add (Register.splat 16 (BitVec.ofInt 16 (l.toNat - c.toNat : Int))))[j].toInt
        = (f (16 * i + j)).toNat + (l.toNat - c.toNat : Int) := by
    intro i hi j hj
    have hin := hf (16 * i + j) (by omega)
    rw [Register.getElem_add _ _ hj, wideWindow, Register.getElem_window _ _ hj, Register.splat,
      Vector.getElem_replicate, toInt_add_slope (by omega) (by omega) (by omega)]
  cases s with
  | byte =>
    obtain rfl : max = 255 := by simpa [Storage.maxima] using hmax
    rw [tmRow, List.map_map]
    apply congrArg rowOf
    apply List.map_congr_left
    intro i hi
    apply Vector.ext
    intro j hj
    have hi := List.mem_range.mp hi
    apply BitVec.eq_of_toNat_eq
    show (clipBytes _)[j].toNat = _
    rw [getElem_clipBytes _ hj, Register.toNat_saturateByte, hsum i hi j hj,
      Register.getElem_window _ _ hj, BitVec.toNat_ofNat, Nat.mod_eq_of_lt (by omega)]
  | word =>
    rw [tmRow, List.map_map]
    apply congrArg rowOf
    apply List.map_congr_left
    intro i hi
    apply Vector.ext
    intro j hj
    have hi := List.mem_range.mp hi
    apply BitVec.eq_of_toNat_eq
    show (clipWords _ _)[j].toNat = _
    rw [toNat_getElem_clipWords (by omega) _ hj, hsum i hi j hj,
      Register.getElem_window _ _ hj, BitVec.toNat_ofNat, Nat.mod_eq_of_lt (by omega)]

theorem tm_eq_predicted (hside : IsWideSide n) (hmax : max ∈ s.maxima)
    (h : edge.Supplies .tm n max) : tm n edge max = .ok (predicted .tm n edge max) := by
  have hsmall := maxima_le hmax
  have hdvd : 16 ∣ n := by rcases hside with rfl | rfl <;> decide
  have habove : ∀ i < n, (edge.above.getD i 0).toNat ≤ max := h.above_le
  have hleft : ∀ i < n, (edge.left.getD i 0).toNat ≤ max := h.left_le
  have hcorner := h.corner_le rfl
  have htop : (List.range (n / 16)).mapM
        (widenedTop ((List.range n).map fun i => edge.above.getD i 0))
      = .ok ((List.range (n / 16)).map fun i => wideWindow (fun i => edge.above.getD i 0) (16 * i)) :=
    Outcome.mapM_of_forall_ok fun i hi =>
      widenedTop_map_range _ (by have := List.mem_range.mp hi; omega)
  rw [tm, IntraEdge.aboveRow_of_le (k := n) h.above_size, Outcome.ok_bind,
    IntraEdge.leftColumn_of_le (k := n) h.left_size, Outcome.ok_bind, htop, Outcome.ok_bind,
    List.mapM_map]
  -- row by row, each from its own difference between left and corner
  apply Outcome.mapM_of_forall_ok
  intro r hr
  have hr := hleft r (List.mem_range.mp hr)
  show (slope (edge.left.getD r 0) edge.topLeft >>= fun base => pure (tmRow max base _ s)) = _
  rw [slope_eq (by omega) (by omega), Outcome.ok_bind, tmRow_eq hdvd hmax habove hr hcorner]
  rfl

/-! ## §5. All kernels. -/

/-- **Every wide kernel predicts the cells of the closed form.** -/
theorem block_eq_predicted {kernel : IntraKernel} {block : IntraEdge s → Nat → Outcome (Block s)}
    (hblock : block? kernel n = some block) (hside : IsWideSide n) (hmax : max ∈ s.maxima)
    (h : edge.Supplies kernel n max) : block edge max = .ok (predicted kernel n edge max) := by
  cases kernel with
  | dc => obtain rfl := Option.some.inj hblock; exact dc_eq_predicted hside hmax h
  | dcLeft => obtain rfl := Option.some.inj hblock; exact dcLeft_eq_predicted hside hmax h
  | dcTop => obtain rfl := Option.some.inj hblock; exact dcTop_eq_predicted hside hmax h
  | dc128 => obtain rfl := Option.some.inj hblock; exact dc128_eq_predicted hside hmax
  | v => obtain rfl := Option.some.inj hblock; exact v_eq_predicted hside h
  | h => obtain rfl := Option.some.inj hblock; exact h_eq_predicted hside h
  | tm => obtain rfl := Option.some.inj hblock; exact tm_eq_predicted hside hmax h
  | d45 | d117 | d135 => cases hblock

/-- On a destination that holds the block, a wide kernel writes the predicted block and nothing
else. -/
theorem predict_of_fits {kernel : IntraKernel} {run : Plane s → IntraEdge s → Nat → Painting s}
    {destination : Plane s} (hrun : predict? kernel n = some run) (hside : IsWideSide n)
    (hmax : max ∈ s.maxima) (h : edge.Supplies kernel n max)
    (hfits : destination.fits n n = .ok true) :
    run destination edge max = destination.paint (predicted kernel n edge max) := by
  obtain ⟨block, hblock, rfl⟩ := Option.map_eq_some_iff.mp hrun
  show destination.paintOutcome _ = _
  rw [Plane.assertFits_of_fits hfits, Outcome.ok_bind, IntraEdge.assertHolds_of_supplies h,
    Outcome.ok_bind, block_eq_predicted hblock hside hmax h]
  rfl

end Intra.Wide

end PixelKernels
