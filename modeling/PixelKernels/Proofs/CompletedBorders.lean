/-
  PixelKernels.Proofs.CompletedBorders
  ────────────────────────────────────
  **A COMPLETED BORDER IS A CLOSED FORM OF THE NEIGHBOURS.**

  A border is completed in cells that have room for the largest block: they
  start as stand-ins, a neighbour is copied over them as far as it goes or
  fits, and its last copied sample fills what is left of the block's part.
  Seen from the block none of this shows.  Position `i` of a side is position
  `i` of the neighbour, or its last one past its end (`extendTo`).

    • Laying a neighbour never leaves the cells, and the block's part of them
      is the extended neighbour (`lay_of_le`).
    • So `EdgeBuffer.build` gives `IntraEdge.completed`, whatever the lengths
      (`build_eq_completed`); the other cells are the stand-ins.
    • A border that has all its samples is completed to itself
      (`completed_completed`), and samples past the block's part are not
      looked at (`lay_take`).
-/
import PixelKernels.Proofs.EntryPoints

namespace PixelKernels

/-! ## §1. Neighbours laid over cells. -/

section Cells

variable {α : Type} {m n : Nat}

theorem storeAt_of_le {cells : Vector α m} {start : Nat} {values : List α}
    (h : start + values.length ≤ m) :
    storeAt cells start values = .ok ⟨overwrite cells.toArray start values, by simp⟩ := by
  unfold storeAt
  exact if_pos h

/-- A neighbour as a block sees it: `n` samples, its last one repeated past its end; a neighbour
without samples is all stand-ins. -/
def extendTo (n : Nat) (missing : α) (neighbour : Array α) : Array α :=
  Array.ofFn fun i : Fin n => neighbour.getD (min i.val (neighbour.size - 1)) missing

@[simp] theorem size_extendTo (n : Nat) (missing : α) (neighbour : Array α) :
    (extendTo n missing neighbour).size = n := by
  simp [extendTo]

theorem getElem?_extendTo {missing : α} {neighbour : Array α} {i : Nat} (h : i < n) :
    (extendTo n missing neighbour)[i]? = some (neighbour.getD (min i (neighbour.size - 1)) missing) := by
  simp [extendTo, h]

/-- A neighbour that has all samples of its side is not extended. -/
theorem extendTo_of_size {missing : α} {neighbour : Array α} (h : neighbour.size = n) :
    extendTo n missing neighbour = neighbour := by
  refine Array.ext_getElem? fun i => ?_
  by_cases hi : i < n
  · have hlast : min i (neighbour.size - 1) = i := by omega
    rw [getElem?_extendTo hi, hlast, Array.getD_eq_getD_getElem?, Array.getElem?_eq_getElem (by omega)]
    rfl
  · rw [Array.getElem?_eq_none (by rw [size_extendTo]; omega), Array.getElem?_eq_none (by omega)]

/-- The first positions of a prefix are those of the whole. -/
theorem getElem?_take_of_lt (data : Array α) {i : Nat} (h : i < n) : (data.take n)[i]? = data[i]? := by
  rw [Array.getElem?_extract, Nat.zero_add]
  by_cases hi : i < data.size
  · rw [if_pos (by omega)]
  · rw [if_neg (by omega), Array.getElem?_eq_none (by omega)]

/-- Cells that agree with the extended neighbour position by position start with it. -/
theorem take_eq_extendTo {cells neighbour : Array α} {missing : α}
    (h : ∀ i < n, cells[i]? = some (neighbour.getD (min i (neighbour.size - 1)) missing)) :
    cells.take n = extendTo n missing neighbour := by
  refine Array.ext_getElem? fun i => ?_
  by_cases hi : i < n
  · rw [getElem?_take_of_lt cells hi, getElem?_extendTo hi, h i hi]
  · have hpast : (cells.take n).size ≤ i := by simp; omega
    rw [Array.getElem?_eq_none hpast, Array.getElem?_eq_none (by rw [size_extendTo]; omega)]

/-- A neighbour with samples is copied as far as it goes or fits, and then repeated. -/
theorem lay_of_pos {cells : Vector α m} {neighbour : Array α} (h : 0 < neighbour.size) :
    lay cells n neighbour = (do
      let copied ← storeAt cells 0 (← slice neighbour 0 (min neighbour.size n))
      let last ← elementAt neighbour (min neighbour.size n - 1)
      storeAt copied (min neighbour.size n) (List.replicate (n - min neighbour.size n) last)) := by
  have hsome : ¬ neighbour.isEmpty = true := by
    rw [Array.isEmpty_iff_size_eq_zero]
    omega
  unfold lay
  exact if_neg hsome

/-- **A neighbour is laid over cells without a fault, and the block's part of them is the extended
neighbour.** -/
theorem lay_of_le (hn : 0 < n) (hroom : n ≤ m) (missing : α) (neighbour : Array α) :
    ∃ laid, lay (Vector.replicate m missing) n neighbour = .ok laid ∧
      laid.toArray.take n = extendTo n missing neighbour := by
  rcases Nat.eq_zero_or_pos neighbour.size with hempty | hpos
  · -- nothing is laid, and the stand-ins are the extension of nothing
    obtain rfl := Array.eq_empty_of_size_eq_zero hempty
    refine ⟨Vector.replicate m missing, rfl, take_eq_extendTo ?_⟩
    intro i hi
    have him : i < m := by omega
    simp [him]
  · generalize hcount : min neighbour.size n = count
    generalize hcopy : ((List.range count).map fun i => neighbour.getD (0 + i) missing) = copy
    have hlength : copy.length = count := by simp [← hcopy]
    generalize hlast : neighbour.getD (count - 1) missing = last
    rw [lay_of_pos hpos, hcount, slice_eq_map_range (by omega) missing, hcopy, Outcome.ok_bind,
      storeAt_of_le (by omega), Outcome.ok_bind, elementAt_eq_getD (by omega) missing, hlast,
      Outcome.ok_bind, storeAt_of_le (by rw [List.length_replicate]; omega)]
    refine ⟨_, rfl, take_eq_extendTo ?_⟩
    intro i hi
    show (overwrite (overwrite _ 0 copy) count (List.replicate (n - count) last))[i]? = _
    by_cases hin : i < count
    · -- the copied part is not written again
      have hat : min i (neighbour.size - 1) = i := by omega
      have hread : (overwrite (Vector.replicate m missing).toArray 0 copy)[0 + i]? = copy[i]? :=
        getElem?_overwrite_of_inside (by simp; omega) (by omega)
      rw [Nat.zero_add] at hread
      rw [getElem?_overwrite_of_outside (.inl hin), hread, hat, ← hcopy]
      simp [hin]
    · -- past the copy the whole neighbour is used up, so its last sample was the last copied
      have hat : min i (neighbour.size - 1) = count - 1 := by omega
      have hread : (overwrite (overwrite (Vector.replicate m missing).toArray 0 copy) count
          (List.replicate (n - count) last))[count + (i - count)]?
            = (List.replicate (n - count) last)[i - count]? :=
        getElem?_overwrite_of_inside (by simp; omega) (by simp; omega)
      rw [Nat.add_sub_cancel' (by omega)] at hread
      rw [hread, hat, hlast, List.getElem?_replicate, if_pos (by omega)]

/-- Samples past the block's part are not looked at. -/
theorem lay_take (hn : 0 < n) (cells : Vector α m) (neighbour : Array α) :
    lay cells n (neighbour.take n) = lay cells n neighbour := by
  have hsize : (neighbour.take n).size = min neighbour.size n := by simp [Nat.min_comm]
  rcases Nat.eq_zero_or_pos neighbour.size with hempty | hpos
  · obtain rfl := Array.eq_empty_of_size_eq_zero hempty
    simp
  · -- what is copied and what is repeated lies in the first `n` samples
    have hcopy : slice (neighbour.take n) 0 (min neighbour.size n)
        = slice neighbour 0 (min neighbour.size n) := by
      rw [slice_of_le (by omega), slice_of_le (by omega)]
      simp [List.take_take]
    have hlast : elementAt (neighbour.take n) (min neighbour.size n - 1)
        = elementAt neighbour (min neighbour.size n - 1) := by
      unfold elementAt
      rw [getElem?_take_of_lt neighbour (by omega)]
    rw [lay_of_pos hpos, lay_of_pos (by omega), hsize, Nat.min_assoc, Nat.min_self, hcopy, hlast]

end Cells

/-! ## §2. The border in closed form. -/

variable {s : Storage} {depth : Depth} {block : BlockSize}

namespace EdgeBuffer

/-- The cells hold the sides of every block that a border can be built for. -/
theorem above_size (border : EdgeBuffer s) : border.edge.above.size = 2 * border.side := by
  have hside := border.side_le
  simp [edge]
  omega

theorem left_size (border : EdgeBuffer s) : border.edge.left.size = border.side := by
  simpa [edge] using border.side_le

end EdgeBuffer

/-- The border of a block of side `n` whose neighbours have these samples. -/
def IntraEdge.completed (depth : Depth) (n : Nat) (row column : Array (Sample s)) (corner : Sample s) :
    IntraEdge s :=
  let belowMid := BitVec.ofNat s.bits (depth.mid - 1)
  let aboveMid := BitVec.ofNat s.bits (depth.mid + 1)
  { topLeft := if row.isEmpty then belowMid else if column.isEmpty then aboveMid else corner
    above := extendTo (2 * n) belowMid row
    left := extendTo n aboveMid column
    haveAbove := !row.isEmpty
    haveLeft := !column.isEmpty }

/-- Both stand-ins are samples of the depth, and a cell that stores it holds them. -/
theorem Depth.mid_add_one_le (depth : Depth) : depth.mid + 1 ≤ depth.max := by
  cases depth <;> decide

theorem ofNat_of_le_max (hdepth : depth.storage = s) {v : Nat} (h : v ≤ depth.max) :
    Sample.ofNat s v = .ok (BitVec.ofNat s.bits v) := by
  subst hdepth
  exact Sample.ofNat_of_lt (h.trans_lt depth.max_lt_two_pow_storage)

theorem toNat_ofNat_of_le_max (hdepth : depth.storage = s) {v : Nat} (h : v ≤ depth.max) :
    (BitVec.ofNat s.bits v).toNat = v :=
  Sample.toNat_of_ofNat (ofNat_of_le_max hdepth h)

/-- **A border of an intra block can always be completed, and what the block sees of it is the
closed form.** -/
theorem EdgeBuffer.build_eq_completed (hblock : (KernelKind.intra .dc).supports block = true)
    (hdepth : depth.storage = s) (above left : Option (Array (Sample s))) (corner : Sample s) :
    ∃ border, EdgeBuffer.build depth block above left corner = .ok border ∧
      border.side = block.width ∧
      border.edge = .completed depth block.width (above.getD #[]) (left.getD #[]) corner := by
  obtain ⟨_, hpos, hside⟩ := KernelKind.intra_supports hblock
  have hmid := depth.mid_add_one_le
  have hstores : s.stores depth = true := Storage.stores_iff.mpr hdepth
  obtain ⟨aboveCells, habove, hrow⟩ := lay_of_le (m := 2 * maxIntraSide) (n := 2 * block.width)
    (by omega) (Nat.mul_le_mul_left 2 hside) (BitVec.ofNat s.bits (depth.mid - 1)) (above.getD #[])
  obtain ⟨leftCells, hleft, hcolumn⟩ := lay_of_le (m := maxIntraSide) (n := block.width)
    (by omega) hside (BitVec.ofNat s.bits (depth.mid + 1)) (left.getD #[])
  unfold EdgeBuffer.build
  rw [dif_pos hblock, hstores, Outcome.require_true, Outcome.ok_bind,
    ofNat_of_le_max hdepth (by omega), Outcome.ok_bind, ofNat_of_le_max hdepth hmid, Outcome.ok_bind]
  simp only [habove, hleft, Outcome.ok_bind]
  refine ⟨_, rfl, rfl, ?_⟩
  unfold EdgeBuffer.edge IntraEdge.completed
  rw [hrow, hcolumn]

/-- What is past the block's part of a neighbour does not change what is built. -/
theorem EdgeBuffer.build_take (block : BlockSize) (above left : Option (Array (Sample s)))
    (corner : Sample s) :
    EdgeBuffer.build depth block (above.map (·.take (2 * block.width))) (left.map (·.take block.width))
      corner = EdgeBuffer.build depth block above left corner := by
  have hpos := block.width_pos
  -- a cut to no samples would turn a neighbour into a missing one; the sides are positive
  have hcut : ∀ (n : Nat) (neighbour : Option (Array (Sample s))),
      (neighbour.map (·.take n)).getD #[] = (neighbour.getD #[]).take n := by
    intro n neighbour
    cases neighbour with
    | none => simp
    | some samples => rfl
  have hempty : ∀ (n : Nat) (samples : Array (Sample s)), 0 < n →
      (samples.take n).isEmpty = samples.isEmpty := by
    intro n samples hn
    rw [Bool.eq_iff_iff, Array.isEmpty_iff_size_eq_zero, Array.isEmpty_iff_size_eq_zero,
      Array.size_extract]
    omega
  unfold EdgeBuffer.build
  simp only [hcut, hempty _ _ hpos, hempty _ _ (show 0 < 2 * block.width by omega), lay_take hpos,
    lay_take (show 0 < 2 * block.width by omega)]

/-- **A border that was completed from both neighbours is completed to itself.** -/
theorem IntraEdge.completed_completed {n : Nat} (hn : 0 < n) {row column : Array (Sample s)}
    (hrow : row ≠ #[]) (hcolumn : column ≠ #[]) (corner : Sample s) :
    let edge := completed depth n row column corner
    completed depth n edge.above edge.left edge.topLeft = edge := by
  have hsome : ∀ {samples : Array (Sample s)} {m : Nat} (missing : Sample s), 0 < m →
      (extendTo m missing samples).isEmpty = false := by
    intro samples m missing hm
    rw [Bool.eq_false_iff, ne_eq, Array.isEmpty_iff_size_eq_zero, size_extendTo]
    omega
  unfold completed
  simp only [extendTo_of_size (size_extendTo _ _ _), hsome _ hn, hsome _ (show 0 < 2 * n by omega),
    Array.isEmpty_eq_false_iff.mpr hrow, Array.isEmpty_eq_false_iff.mpr hcolumn, Bool.false_eq_true,
    if_false]

/-! ## §3. What a completed border says of its neighbours. -/

/-- A side of `n` samples that continues a neighbour; without one, every sample is the stand-in. -/
structure Extends (side : Array (Sample s)) (n : Nat) (neighbour : Array (Sample s)) (standIn : Nat) :
    Prop where
  size : side.size = n
  known : neighbour ≠ #[] → ∀ i < n, side[i]? = neighbour[min i (neighbour.size - 1)]?
  missing : neighbour = #[] → ∀ v ∈ side, v.toNat = standIn

theorem extends_extendTo {n standIn : Nat} {missing : Sample s} (h : missing.toNat = standIn)
    (neighbour : Array (Sample s)) : Extends (extendTo n missing neighbour) n neighbour standIn where
  size := size_extendTo n missing neighbour
  known := by
    intro hsome i hi
    have hsize : neighbour.size ≠ 0 := fun hzero => hsome (Array.eq_empty_of_size_eq_zero hzero)
    rw [getElem?_extendTo hi, Array.getD_eq_getD_getElem?, Array.getElem?_eq_getElem (by omega)]
    rfl
  missing := by
    rintro rfl v hv
    obtain ⟨i, rfl⟩ := Array.mem_ofFn.mp hv
    exact h

/-- What a completed border is, said of its neighbours and of the corner between them. -/
structure IntraEdge.Completes (edge : IntraEdge s) (depth : Depth) (n : Nat)
    (row column : Array (Sample s)) (corner : Sample s) : Prop where
  above : Extends edge.above (2 * n) row (depth.mid - 1)
  left : Extends edge.left n column (depth.mid + 1)
  corner_missing : row = #[] → edge.topLeft.toNat = depth.mid - 1
  corner_half : row ≠ #[] → column = #[] → edge.topLeft.toNat = depth.mid + 1
  corner_known : row ≠ #[] → column ≠ #[] → edge.topLeft = corner
  have_above : edge.haveAbove = true ↔ row ≠ #[]
  have_left : edge.haveLeft = true ↔ column ≠ #[]

theorem IntraEdge.completes_completed (hdepth : depth.storage = s) (n : Nat)
    (row column : Array (Sample s)) (corner : Sample s) :
    (completed depth n row column corner).Completes depth n row column corner := by
  have hmid := depth.mid_add_one_le
  have hbelow : (BitVec.ofNat s.bits (depth.mid - 1)).toNat = depth.mid - 1 :=
    toNat_ofNat_of_le_max hdepth (by omega)
  have hover : (BitVec.ofNat s.bits (depth.mid + 1)).toNat = depth.mid + 1 :=
    toNat_ofNat_of_le_max hdepth hmid
  refine ⟨extends_extendTo hbelow row, extends_extendTo hover column, ?_, ?_, ?_, ?_, ?_⟩
  · rintro rfl
    exact hbelow
  · rintro hrow rfl
    simpa [completed, hrow] using hover
  · intro hrow hcolumn
    simp [completed, hrow, hcolumn]
  · simp [completed]
  · simp [completed]

/-- What is promised of a border that was built from these neighbours. -/
structure EdgeBuffer.IsComplete (border : EdgeBuffer s) (depth : Depth) (block : BlockSize)
    (above left : Option (Array (Sample s))) (corner : Sample s) : Prop where
  built : EdgeBuffer.build depth block above left corner = .ok border
  completes : border.edge.Completes depth block.width (above.getD #[]) (left.getD #[]) corner
  accepted : ∀ kernel, border.edge.check kernel block = .ok ()
  /-- With both neighbours there, what was built is complete already. -/
  again : above.getD #[] ≠ #[] → left.getD #[] ≠ #[] →
    ∃ rebuilt, EdgeBuffer.build depth block (some border.edge.above) (some border.edge.left)
      border.edge.topLeft = .ok rebuilt ∧ rebuilt.edge = border.edge
  /-- Neighbours that differ past the block's part give the same. -/
  cut : ∀ other opposite : Option (Array (Sample s)),
    other.map (·.take (2 * block.width)) = above.map (·.take (2 * block.width)) →
    opposite.map (·.take block.width) = left.map (·.take block.width) →
    EdgeBuffer.build depth block other opposite corner = .ok border

/-- **Every border of an intra block is completed**, from neighbours of any lengths, present or not:
it says of them what it should, every kernel accepts it, building it again changes nothing, and
samples past the block's part never matter. -/
theorem borders_complete_from_any_neighbours (depth : Depth) (block : BlockSize)
    (hblock : (KernelKind.intra .dc).supports block = true)
    (above left : Option (Array (Sample depth.storage))) (corner : Sample depth.storage) :
    ∃ border : EdgeBuffer depth.storage, border.IsComplete depth block above left corner := by
  have hpos := block.width_pos
  obtain ⟨border, hbuilt, _, hedge⟩ := EdgeBuffer.build_eq_completed hblock rfl above left corner
  refine ⟨border, hbuilt, ?_, ?_, ?_, ?_⟩
  · rw [hedge]
    exact IntraEdge.completes_completed rfl _ _ _ _
  · intro kernel
    have hlengths : kernel.aboveLength block.width ≤ 2 * block.width ∧
        kernel.leftLength block.width ≤ block.width := by
      cases kernel <;> simp [IntraKernel.aboveLength, IntraKernel.leftLength] <;> omega
    rw [hedge, Kernels.check_eq_ok_iff]
    refine ⟨hblock, ?_, ?_⟩
    · exact hlengths.1.trans_eq (size_extendTo _ _ _).symm
    · exact hlengths.2.trans_eq (size_extendTo _ _ _).symm
  · intro hrow hcolumn
    obtain ⟨rebuilt, hrebuilt, _, hagain⟩ := EdgeBuffer.build_eq_completed hblock rfl
      (some border.edge.above) (some border.edge.left) border.edge.topLeft
    refine ⟨rebuilt, hrebuilt, hagain.trans ?_⟩
    rw [hedge]
    exact IntraEdge.completed_completed hpos hrow hcolumn corner
  · intro other opposite habove hleft
    rw [← EdgeBuffer.build_take, habove, hleft, EdgeBuffer.build_take, hbuilt]

/-- A row of three ten-bit samples above a block of side eight, and nothing to the left of it. -/
theorem border_of_short_row_completes :
    (KernelKind.intra .dc).supports .b8x8 = true ∧
    ∃ border : EdgeBuffer .word,
      border.IsComplete .ten .b8x8 (some #[400, 401, 402]) (some #[]) 7 :=
  ⟨by decide, borders_complete_from_any_neighbours .ten .b8x8 (by decide) (some #[400, 401, 402])
    (some #[]) 7⟩

end PixelKernels
