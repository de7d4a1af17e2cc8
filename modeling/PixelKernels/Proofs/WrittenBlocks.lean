/-
  PixelKernels.Proofs.WrittenBlocks
  ─────────────────────────────────
  **WHAT A BUFFER HOLDS AFTER A BLOCK WAS WRITTEN INTO IT.**

  On a plane that holds the block, writing does not fault.  What is in the
  buffer afterwards was there before or comes from the block
  (`forall_mem_paint`), whatever the stride.  What a row wrote stays where no
  later row reaches (`getElem?_paintFrom_of_last`).  If the stride keeps the
  rows apart, that is everywhere, so reading the plane gives the block back
  (`pixel_paint`).
-/
import PixelKernels.Proofs.PredictedCells
import PixelKernels.Proofs.Rectangles

namespace PixelKernels

variable {s : Storage}

/-! ## §1. Where the samples come from. -/

theorem forall_mem_overwrite {α : Type} {P : α → Prop} {values : List α} :
    ∀ {buffer : Array α} {start : Nat}, (∀ v ∈ buffer, P v) → (∀ v ∈ values, P v) →
      ∀ v ∈ overwrite buffer start values, P v := by
  induction values with
  | nil => intro buffer start hbuffer _; exact hbuffer
  | cons w rest ih =>
    intro buffer start hbuffer hvalues
    refine ih ?_ fun v hv => hvalues v (List.mem_cons_of_mem w hv)
    intro v hv
    rcases Array.mem_or_eq_of_mem_setIfInBounds hv with hold | rfl
    · exact hbuffer v hold
    · exact hvalues v List.mem_cons_self

namespace Plane

theorem forall_mem_paintFrom {P : Sample s → Prop} (p : Plane s) {block : Block s} :
    ∀ {buffer : Array (Sample s)} {y : Nat}, (∀ v ∈ buffer, P v) →
      (∀ row ∈ block, ∀ v ∈ row, P v) → ∀ v ∈ (p.paintFrom buffer y block).buffer, P v := by
  -- induction on the rows still to be written; a fault leaves the buffer as it is by then
  induction block with
  | nil => intro buffer y hbuffer _; exact hbuffer
  | cons row rest ih =>
    intro buffer y hbuffer hblock
    have hwritten : ∀ start, ∀ v ∈ overwrite buffer start row, P v :=
      fun start => forall_mem_overwrite hbuffer (hblock row List.mem_cons_self)
    unfold paintFrom
    split
    · exact hbuffer
    · split
      · exact ih (hwritten _) fun r hr => hblock r (List.mem_cons_of_mem row hr)
      · exact hbuffer

/-- **What holds of all samples of a buffer and of a block holds after the block was written.** -/
theorem forall_mem_paint {P : Sample s → Prop} {p : Plane s} {block : Block s}
    (hdata : ∀ v ∈ p.data, P v) (hblock : ∀ row ∈ block, ∀ v ∈ row, P v) :
    ∀ v ∈ (p.paint block).buffer, P v :=
  forall_mem_paintFrom p hdata hblock

/-! ## §2. Writing where there is room. -/

section Room

variable {p : Plane s} {width height : Nat}

/-- One row of a block that fits is written at its place, and writing goes on with the next. -/
theorem paintFrom_cons_of_holds (h : p.Holds width height) {buffer : Array (Sample s)} {y : Nat}
    {row : List (Sample s)} {rest : Block s} (hsize : buffer.size = p.data.size) (hy : y < height)
    (hrow : row.length = width) :
    p.paintFrom buffer y (row :: rest)
      = p.paintFrom (overwrite buffer (p.position 0 y).toNat row) (y + 1) rest := by
  have hstart := h.start y hy
  have hroom := h.room y hy
  rw [paintFrom, rowStart_of_holds h hy]
  exact if_pos (by omega)

theorem paintFrom_of_holds (h : p.Holds width height) {block : Block s} :
    ∀ {buffer : Array (Sample s)} {y : Nat}, buffer.size = p.data.size → y + block.length ≤ height →
      (∀ row ∈ block, row.length = width) →
      (p.paintFrom buffer y block).outcome = .ok () ∧
        (p.paintFrom buffer y block).buffer.size = p.data.size := by
  induction block with
  | nil => intro buffer y hsize _ _; exact ⟨rfl, hsize⟩
  | cons row rest ih =>
    intro buffer y hsize hheight hrows
    rw [List.length_cons] at hheight
    rw [paintFrom_cons_of_holds h hsize (by omega) (hrows row List.mem_cons_self)]
    exact ih (by rw [size_overwrite, hsize]) (by omega) fun r hr => hrows r (List.mem_cons_of_mem row hr)

/-- A position outside the rows that are written keeps its sample. -/
theorem getElem?_paintFrom_of_outside (h : p.Holds width height) {block : Block s} {i : Nat} :
    ∀ {buffer : Array (Sample s)} {y : Nat}, buffer.size = p.data.size → y + block.length ≤ height →
      (∀ row ∈ block, row.length = width) →
      (∀ r, y ≤ r → r < height → i < p.position 0 r ∨ p.position 0 r + width ≤ i) →
      (p.paintFrom buffer y block).buffer[i]? = buffer[i]? := by
  induction block with
  | nil => intro buffer y _ _ _ _; rfl
  | cons row rest ih =>
    intro buffer y hsize hheight hrows houtside
    rw [List.length_cons] at hheight
    have hrow := hrows row List.mem_cons_self
    have hstart := h.start y (by omega)
    have hout := houtside y (Nat.le_refl y) (by omega)
    rw [paintFrom_cons_of_holds h hsize (by omega) hrow,
      ih (by rw [size_overwrite, hsize]) (by omega) (fun r hr => hrows r (List.mem_cons_of_mem row hr))
        fun r hr => houtside r (by omega),
      getElem?_overwrite_of_outside (by omega)]

/-- **A position that no later row reaches holds what the row wrote there.** -/
theorem getElem?_paintFrom_of_last (h : p.Holds width height) {block : Block s} {x : Nat}
    (hx : x < width) :
    ∀ {buffer : Array (Sample s)} {y k : Nat}, buffer.size = p.data.size →
      y + block.length ≤ height → (∀ row ∈ block, row.length = width) → (hk : k < block.length) →
      (∀ r, y + k < r → r < height →
        p.position x (y + k) < p.position 0 r ∨ p.position 0 r + width ≤ p.position x (y + k)) →
      (p.paintFrom buffer y block).buffer[(p.position x (y + k)).toNat]? = block[k][x]? := by
  induction block with
  | nil => intro buffer y k _ _ _ hk; simp at hk
  | cons row rest ih =>
    intro buffer y k hsize hheight hrows hk hlater
    rw [List.length_cons] at hheight hk
    have hrow := hrows row List.mem_cons_self
    have hrest : ∀ r ∈ rest, r.length = width := fun r hr => hrows r (List.mem_cons_of_mem row hr)
    have hstart := h.start y (by omega)
    have hroom := h.room y (by omega)
    have hat := position_add p x y
    have hnext : (overwrite buffer (p.position 0 y).toNat row).size = p.data.size := by
      rw [size_overwrite, hsize]
    rw [paintFrom_cons_of_holds h hsize (by omega) hrow]
    cases k with
    | zero =>
      -- the rows that follow do not reach back to this position
      rw [Nat.add_zero] at hlater
      show (p.paintFrom _ (y + 1) rest).buffer[(p.position x y).toNat]? = row[x]?
      rw [getElem?_paintFrom_of_outside h hnext (by omega) hrest,
        show (p.position x y).toNat = (p.position 0 y).toNat + x by omega,
        getElem?_overwrite_of_inside (by omega) (by omega)]
      intro r hr hrheight
      have hapart := hlater r hr hrheight
      omega
    | succ k =>
      rw [show y + (k + 1) = y + 1 + k by omega] at hlater ⊢
      exact ih hnext (by omega) hrest (by omega) hlater

/-! ## §3. Rows that stay apart. -/

/-- A stride of at least the width, in either direction, keeps two rows apart. -/
theorem position_apart (hstride : width ≤ p.stride.natAbs) {x y r : Nat} (hx : x < width)
    (hr : y < r) : p.position x y < p.position 0 r ∨ p.position 0 r + width ≤ p.position x y := by
  have hsteps : (1 : Int) ≤ r - y := by omega
  have hmove : (r : Int) * p.stride = y * p.stride + (r - y) * p.stride := by
    rw [Int.sub_mul]; omega
  unfold position
  -- at least one stride lies between the rows, upwards or downwards in the buffer
  rcases Int.le_total 0 p.stride with hs | hs
  · have hfar : 1 * p.stride ≤ (r - y) * p.stride := Int.mul_le_mul_of_nonneg_right hsteps hs
    omega
  · have hfar : (r - y) * p.stride ≤ 1 * p.stride := Int.mul_le_mul_of_nonpos_right hsteps hs
    omega

/-- **Rows that stay apart are all found as they were written.** -/
theorem getElem?_paintFrom_of_apart (h : p.Holds width height) (hstride : width ≤ p.stride.natAbs)
    {block : Block s} {x y k : Nat} (hx : x < width) {buffer : Array (Sample s)}
    (hsize : buffer.size = p.data.size) (hheight : y + block.length ≤ height)
    (hrows : ∀ row ∈ block, row.length = width) (hk : k < block.length) :
    (p.paintFrom buffer y block).buffer[(p.position x (y + k)).toNat]? = block[k][x]? :=
  getElem?_paintFrom_of_last h hx hsize hheight hrows hk fun _ hr _ => position_apart hstride hx hr

/-! ## §4. Whole blocks. -/

variable {block : Block s}

theorem paint_of_holds (h : p.Holds width height) (hheight : block.length = height)
    (hrows : ∀ row ∈ block, row.length = width) :
    (p.paint block).outcome = .ok () ∧ (p.paint block).buffer.size = p.data.size :=
  paintFrom_of_holds h rfl (by omega) hrows

/-- **A plane whose rows stay apart reads back the block that was written into it.** -/
theorem pixel_paint (h : p.Holds width height) (hstride : width ≤ p.stride.natAbs)
    (hheight : block.length = height) (hrows : ∀ row ∈ block, row.length = width) {x y : Nat}
    (hx : x < width) (hy : y < block.length) :
    ({ p with data := (p.paint block).buffer } : Plane s).pixel x y = block[y].getD x 0 := by
  have hread := getElem?_paintFrom_of_apart h hstride hx (y := 0) (k := y) rfl
    (by omega) hrows hy
  rw [Nat.zero_add] at hread
  rw [pixel, Array.getD_eq_getD_getElem?, List.getD_eq_getElem?_getD]
  exact congrArg (Option.getD · 0) hread

end Room

/-- A predicted block that fits its destination is written without a fault. -/
theorem paint_predicted_of_fits (kernel : IntraKernel) (edge : IntraEdge s) (max : Nat) {p : Plane s}
    {n : Nat} (hn : n < 2 ^ 63) (hfits : p.fits n n = .ok true) :
    (p.paint (Intra.predicted kernel n edge max)).outcome = .ok () ∧
      (p.paint (Intra.predicted kernel n edge max)).buffer.size = p.data.size :=
  paint_of_holds (holds_of_fits hn hn hfits) Intra.length_predicted
    fun _ hrow => Intra.length_of_mem_predicted hrow

end Plane

end PixelKernels
