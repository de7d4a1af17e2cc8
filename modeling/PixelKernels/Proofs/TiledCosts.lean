/-
  PixelKernels.Proofs.TiledCosts
  ──────────────────────────────
  **THE COST OF A BLOCK IS THE SUM OF THE COSTS OF ITS TILES.**

  A block whose sides are multiples of those of a smaller one is tiled by it.
  A tile is a plane of its own: the same buffer and the same stride, moved down
  and to the right (`Plane.offset`).

    • Any part of a rectangle that fits is there after moving, whatever the
      stride: the distance is a 64-bit position (`Plane.inInt64_distance`), the
      move does not fault (`Plane.offset_of_holds`), the part fits
      (`Plane.Holds.moved`) and shows what the whole shows there
      (`Plane.pixel_moved`).  What is let through is so in all its parts
      (`Kernels.Admits.moved`).
    • A double sum is the sum over the tiles (`Sad.cost_tiles`).  Every entry
      point answers with such a sum, so it does not matter that the tiles may
      run another kernel than the block.
-/
import PixelKernels.Proofs.EntryPoints

namespace PixelKernels

open Finset
open Sad (cost)

variable {s : Storage} {depth : Depth} {block tile : BlockSize}

/-! ## §1. Parts of a rectangle. -/

namespace Plane

/-- How far the sample in column `x` of row `y` lies from the start of a plane. -/
def distance (p : Plane s) (x y : Nat) : Int := y * p.stride + x

/-- The plane that starts in column `x` of row `y`. -/
def moved (p : Plane s) (x y : Nat) : Plane s := ⟨p.data, (p.position x y).toNat, p.stride⟩

variable {p : Plane s} {width height x y : Nat} (h : p.Holds width height)
include h

/-- Every sample of a rectangle that fits lies at a position of 64 bits. -/
theorem position_range (hx : x ≤ width) (hy : y < height) :
    0 ≤ p.position x y ∧ p.position x y < 2 ^ 63 := by
  have hstart := h.start y hy
  have hstop := h.stop y hy
  rw [position_add]
  omega

theorem inInt64_distance (hx : x ≤ width) (hy : y < height) : InInt64 (p.distance x y) := by
  have hrise := h.rise y hy
  have hend := (position_range h hx hy).2
  -- the plane itself does not start before its buffer
  have hfirst : 0 ≤ p.position 0 0 := h.start 0 (by omega)
  simp only [position] at hend hfirst
  unfold InInt64 distance
  omega

/-- **Moving to a part of a rectangle that fits does not fault.** -/
theorem offset_of_holds (hx : x ≤ width) (hy : y < height) :
    p.offset (p.distance x y) = .ok (p.moved x y) := by
  obtain ⟨hstart, hend⟩ := position_range h hx hy
  have hat : signed p.base + p.distance x y = p.position x y := by
    unfold distance position
    omega
  rw [offset, hat, asInt64_of_range (by omega) hend, Outcome.ok_bind, decide_eq_true hstart,
    Outcome.require_true, Outcome.ok_bind]
  rfl

/-- **A plane that was moved shows the same rows and columns, counted from elsewhere.** -/
theorem position_moved (hx : x ≤ width) (hy : y < height) (i j : Nat) :
    (p.moved x y).position i j = p.position (x + i) (y + j) := by
  obtain ⟨hstart, hend⟩ := position_range h hx hy
  show signed (p.position x y).toNat + j * p.stride + i = _
  rw [signed_of_lt (by omega), Int.toNat_of_nonneg hstart, position, position]
  push_cast
  rw [Int.add_mul]
  omega

theorem pixel_moved (hx : x ≤ width) (hy : y < height) (i j : Nat) :
    (p.moved x y).pixel i j = p.pixel (x + i) (y + j) := by
  rw [pixel, position_moved h hx hy]
  rfl

/-- **A part of a rectangle that fits lies inside the buffer.** -/
theorem Holds.moved {w k : Nat} (hx : x + w ≤ width) (hy : y + k ≤ height) :
    (p.moved x y).Holds w k where
  rows_lt := by
    have hrows := h.rows_lt
    omega
  rise := fun j hj => h.rise j (by omega)
  start := by
    intro j hj
    have hstart := h.start (y + j) (by omega)
    rw [position_moved h (by omega) (by omega), position_add]
    omega
  room := by
    intro j hj
    have hroom := h.room (y + j) (by omega)
    show (p.moved x y).position 0 j + w ≤ p.data.size
    rw [position_moved h (by omega) (by omega), position_add]
    omega
  stop := by
    intro j hj
    have hstop := h.stop (y + j) (by omega)
    rw [position_moved h (by omega) (by omega), position_add]
    omega

end Plane

/-- **What is let through is let through in all its parts.** -/
theorem Kernels.Admits.moved {p : Plane s} {x y : Nat} (h : Admits depth block p)
    (hx : x + tile.width ≤ block.width) (hy : y + tile.height ≤ block.height) :
    Admits depth tile (p.moved x y) where
  fits := by
    have hw := tile.width_le
    have hh := tile.height_le
    exact Plane.fits_of_holds (by omega) (by omega) tile.height_pos (h.holds.moved hx hy)
  inRange := by
    intro i hi j hj
    rw [Plane.pixel_moved h.holds (by omega) (by omega)]
    exact h.inRange (x + i) (by omega) (y + j) (by omega)

/-! ## §2. Sums over tiles. -/

/-- **A double sum, tile by tile.** -/
theorem Sad.cost_tiles (w h m n : Nat) (f g : Nat → Nat → Sample s) :
    cost (w * n) (h * m) f g = ∑ i ∈ range m, ∑ j ∈ range n,
      cost w h (fun x y => f (w * j + x) (h * i + y)) fun x y => g (w * j + x) (h * i + y) := by
  unfold cost
  rw [sum_range_mul]
  refine sum_congr rfl fun i _ => ?_
  -- every row is cut into runs, and one run of each makes up a tile
  exact (sum_congr rfl fun y _ => sum_range_mul w n _).trans sum_comm

/-! ## §3. Tiles of planes. -/

/-- How far a tile lies from the start of its plane: `i` tiles down and `j` tiles to the right. -/
def Plane.tileOffset (p : Plane s) (tile : BlockSize) (i j : Nat) : Int :=
  i * tile.height * p.stride + j * tile.width

theorem Plane.tileOffset_eq_distance (p : Plane s) (i j : Nat) :
    p.tileOffset tile i j = p.distance (tile.width * j) (tile.height * i) := by
  unfold tileOffset distance
  push_cast
  rw [Int.mul_comm i, Int.mul_comm j]

/-- A plane that holds the start of a tile can be moved there. -/
theorem Plane.offset_tileOffset {p : Plane s} {width height i j : Nat} (h : p.Holds width height)
    (hx : tile.width * j ≤ width) (hy : tile.height * i < height) :
    InInt64 (p.tileOffset tile i j) ∧
      p.offset (p.tileOffset tile i j) = .ok (p.moved (tile.width * j) (tile.height * i)) := by
  rw [tileOffset_eq_distance]
  exact ⟨inInt64_distance h hx hy, offset_of_holds h hx hy⟩

/-- A tile that is counted inside the block lies inside the block. -/
theorem mul_add_le_of_lt_div {size side i : Nat} (hi : i < size / side) : side * i + side ≤ size := by
  calc side * i + side = side * (i + 1) := (Nat.mul_succ ..).symm
    _ ≤ side * (size / side) := Nat.mul_le_mul_left side hi
    _ ≤ size := Nat.mul_div_le size side

namespace Kernels

/-- One tile of a call: both planes can be moved to it, each by its own stride, and the call on the
planes that were moved is let through and answers with this cost. -/
structure CostsTile (kernels : Kernels) (depth : Depth) (tile : BlockSize)
    (source reference : Plane s) (i j cost : Nat) : Prop where
  distances : InInt64 (source.tileOffset tile i j) ∧ InInt64 (reference.tileOffset tile i j)
  answers : ∃ a b run, source.offset (source.tileOffset tile i j) = .ok a ∧
    reference.offset (reference.tileOffset tile i j) = .ok b ∧
    kernels.admitSad depth tile a b = .ok run ∧ kernels.sad depth tile a b = .ok cost

section Answers

variable {kernels : Kernels} {processor : Processor} (h : kernels.Selects processor)
  (hdepth : depth.storage = s) {source reference : Plane s} (hs : Admits depth block source)
  (hr : Admits depth block reference)
include h hdepth hs hr

theorem costsTile_of_admits {i j : Nat} (hi : i < block.height / tile.height)
    (hj : j < block.width / tile.width) :
    kernels.CostsTile depth tile source reference i j
      (cost tile.width tile.height
        (fun x y => source.pixel (tile.width * j + x) (tile.height * i + y))
        fun x y => reference.pixel (tile.width * j + x) (tile.height * i + y)) := by
  have hdown := mul_add_le_of_lt_div hi
  have hright := mul_add_le_of_lt_div hj
  have hx : tile.width * j ≤ block.width := by omega
  have hy : tile.height * i < block.height := by
    have hpos := tile.height_pos
    omega
  have hadmits : Admits depth tile (source.moved (tile.width * j) (tile.height * i)) :=
    hs.moved hright hdown
  have hadmits' : Admits depth tile (reference.moved (tile.width * j) (tile.height * i)) :=
    hr.moved hright hdown
  obtain ⟨hdistance, hmoved⟩ := Plane.offset_tileOffset hs.holds hx hy
  obtain ⟨hdistance', hmoved'⟩ := Plane.offset_tileOffset hr.holds hx hy
  refine ⟨⟨hdistance, hdistance'⟩, _, _, _, hmoved, hmoved',
    admitSad_of_admits h hdepth hadmits hadmits', (sad_eq_ok_iff h hdepth).mpr ⟨⟨hadmits, hadmits'⟩, ?_⟩⟩
  -- the tile shows the samples of the block, counted from its corner
  exact Sad.cost_congr (fun x _ y _ => Plane.pixel_moved hs.holds hx hy x y)
    fun x _ y _ => Plane.pixel_moved hr.holds hx hy x y

end Answers

end Kernels

/-! ## §4. Any level. -/

/-- **At every level the cost of a block that is let through is the sum of the costs of its tiles**,
each of which is let through as a call of its own. -/
theorem costs_add_up_over_tiles (processor : Processor) (level : CpuLevel) (s : Storage) (depth : Depth)
    (block tile : BlockSize) (hwidth : tile.width ∣ block.width) (hheight : tile.height ∣ block.height)
    (source reference : Plane s) :
    ∃ kernels, Kernels.atLevel processor level = .ok kernels ∧
      ∀ run, kernels.admitSad depth block source reference = .ok run →
        ∃ costs : Nat → Nat → Nat,
          (∀ i < block.height / tile.height, ∀ j < block.width / tile.width,
            kernels.CostsTile depth tile source reference i j (costs i j)) ∧
          kernels.sad depth block source reference
            = .ok (∑ i ∈ range (block.height / tile.height),
                ∑ j ∈ range (block.width / tile.width), costs i j) := by
  obtain ⟨kernels, hkernels, hselects⟩ := Kernels.atLevel_selects processor level
  refine ⟨kernels, hkernels, ?_⟩
  intro run hrun
  obtain ⟨hdepth, hs, hr⟩ := Kernels.admits_of_admitSad hselects hrun
  refine ⟨_, fun i hi j hj => Kernels.costsTile_of_admits hselects hdepth hs hr hi hj,
    (Kernels.sad_eq_ok_iff hselects hdepth).mpr ⟨⟨hs, hr⟩, ?_⟩⟩
  rw [← Sad.cost_tiles, Nat.mul_div_cancel' hwidth, Nat.mul_div_cancel' hheight]

/-- Sixteen rows of sixteen samples, each three samples before the one above it. -/
def steepRows : Plane .byte := ⟨Array.ofFn fun i : Fin 61 => BitVec.ofNat 8 (4 * i), 45, -3⟩

/-- Sixteen rows of sixteen samples, each one sample after the one above it. -/
def gentleRows : Plane .byte := ⟨Array.ofFn fun i : Fin 31 => BitVec.ofNat 8 (200 - 5 * i), 0, 1⟩

/-- Two planes with overlapping rows that run in opposite directions, with vector registers for the
whole block and without them for its tiles. -/
theorem cost_of_steepRows_tiled :
    BlockSize.b4x8.width ∣ BlockSize.b16x16.width ∧ BlockSize.b4x8.height ∣ BlockSize.b16x16.height ∧
    ∃ kernels run, Kernels.atLevel .full .v3 = .ok kernels ∧
      kernels.admitSad .eight .b16x16 steepRows gentleRows = .ok run ∧
      ∃ costs : Nat → Nat → Nat,
        (∀ i < 2, ∀ j < 4, kernels.CostsTile .eight .b4x8 steepRows gentleRows i j (costs i j)) ∧
        kernels.sad .eight .b16x16 steepRows gentleRows
          = .ok (∑ i ∈ range 2, ∑ j ∈ range 4, costs i j) := by
  obtain ⟨kernels, hkernels, htiles⟩ := costs_add_up_over_tiles .full .v3 .byte .eight .b16x16 .b4x8
    (by decide) (by decide) steepRows gentleRows
  have hselects : kernels.Selects _ := Kernels.selects_of_atLevel hkernels
  have hs : Kernels.Admits .eight .b16x16 steepRows := ⟨rfl, Kernels.inRange_eight _⟩
  have hr : Kernels.Admits .eight .b16x16 gentleRows := ⟨rfl, Kernels.inRange_eight _⟩
  have hrun := Kernels.admitSad_of_admits hselects rfl hs hr
  exact ⟨by decide, by decide, kernels, _, hkernels, hrun, htiles _ hrun⟩

end PixelKernels
