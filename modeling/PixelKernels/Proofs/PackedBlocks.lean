/-
  PixelKernels.Proofs.PackedBlocks
  ────────────────────────────────
  **BLOCKS WITHOUT GAPS, AS BUFFERS AND AS PLANES.**

  `Sad.pack` lays a matrix out row after row; `Sad.packed` reads such a buffer
  back.  As a plane whose stride is its width a packed block fits, and its
  pixels are the packed samples (`Plane.fits_contiguous`,
  `Plane.pixel_contiguous`), so the entry points let it through exactly for
  what its samples are (`Kernels.admits_contiguous`).
-/
import PixelKernels.Proofs.EntryPoints

namespace PixelKernels

variable {s : Storage}

/-! ## §1. Matrices laid out. -/

namespace Sad

/-- A matrix as a packed block, row after row. -/
def pack (width height : Nat) (f : Nat → Nat → Sample s) : Array (Sample s) :=
  Array.ofFn fun i : Fin (width * height) => f (i % width) (i / width)

@[simp] theorem size_pack (width height : Nat) (f : Nat → Nat → Sample s) :
    (pack width height f).size = width * height := by
  simp [pack]

/-- **What was packed is read back.** -/
theorem packed_pack {width height x y : Nat} (f : Nat → Nat → Sample s) (hx : x < width)
    (hy : y < height) : packed width (pack width height f) x y = f x y := by
  have hrow : y * width + width ≤ width * height := packed_row_le hy
  have hcolumn : (y * width + x) % width = x := by
    rw [Nat.add_comm, Nat.add_mul_mod_self_right, Nat.mod_eq_of_lt hx]
  have hline : (y * width + x) / width = y := by
    rw [Nat.add_comm, Nat.add_mul_div_right x y (by omega), Nat.div_eq_of_lt hx, Nat.zero_add]
  unfold packed
  rw [Array.getD_eq_getD_getElem?, Array.getElem?_eq_getElem (by rw [size_pack]; omega)]
  simp only [pack, Array.getElem_ofFn, hcolumn, hline, Option.getD_some]

end Sad

/-! ## §2. Packed planes. -/

namespace Plane

/-- The samples of a plane's block, packed. -/
def pack (p : Plane s) (block : BlockSize) : Array (Sample s) :=
  Sad.pack block.width block.height p.pixel

theorem size_pack (p : Plane s) (block : BlockSize) : (p.pack block).size = block.area :=
  Sad.size_pack ..

theorem packed_pack (p : Plane s) {block : BlockSize} {x y : Nat} (hx : x < block.width)
    (hy : y < block.height) : Sad.packed block.width (p.pack block) x y = p.pixel x y :=
  Sad.packed_pack p.pixel hx hy

theorem contiguous_eq {data : Array (Sample s)} {stride : Nat} (h : stride < 1 <<< 63) :
    contiguous data stride = ⟨data, 0, stride⟩ := by
  rw [contiguous, signed_of_lt h]

/-- **A buffer with samples enough is a plane that holds the packed block.** -/
theorem fits_contiguous {data : Array (Sample s)} {width height : Nat} (hw : width ≤ 64)
    (hh : height ≤ 64) (hpos : 0 < height) (hcover : width * height ≤ data.size) :
    (contiguous data width).fits width height = .ok true := by
  have hsteps : signed (max height 1) - 1 = (height - 1 : Nat) := by
    rw [signed_of_lt (by omega)]
    omega
  have hlast : (height - 1) * width + width = width * height := by
    rw [← Nat.succ_mul, Nat.succ_eq_add_one, Nat.sub_add_cancel hpos, Nat.mul_comm]
  have hsmall : width * height ≤ 64 * 64 := Nat.mul_le_mul hw hh
  have hrise : ((height - 1 : Nat) : Int) * (width : Int) = ((height - 1) * width : Nat) := by
    push_cast
    rfl
  rw [contiguous_eq (by omega)]
  unfold fits span
  rw [hsteps, asInt64_of_range (by omega) (by omega), Outcome.ok_bind, hrise,
    asInt64_of_range (by omega) (by omega), Outcome.ok_bind, signed_of_lt (show 0 < 1 <<< 63 by decide),
    asInt64_of_range (by omega) (by omega), Outcome.ok_bind, signed_of_lt (show width < 1 <<< 63 by omega),
    asInt64_of_range (by omega) (by omega), Outcome.ok_bind]
  -- the first row starts the buffer, and the last one ends where the packed block does
  refine congrArg Except.ok (Span.check_isOk_iff.mpr ?_)
  dsimp only
  exact ⟨by omega, by omega⟩

/-- The rows of a packed plane follow each other without gaps. -/
theorem position_contiguous {data : Array (Sample s)} {width : Nat} (hw : width ≤ 64) (x y : Nat) :
    (contiguous data width).position x y = (y * width + x : Nat) := by
  have hbase : signed 0 = 0 := signed_of_lt (by decide)
  rw [contiguous_eq (by omega)]
  show signed 0 + (y : Int) * width + x = (y * width + x : Nat)
  rw [hbase]
  push_cast
  omega

/-- The pixels of a packed plane are the packed samples. -/
theorem pixel_contiguous {data : Array (Sample s)} {width : Nat} (hw : width ≤ 64) (x y : Nat) :
    (contiguous data width).pixel x y = Sad.packed width data x y := by
  rw [pixel, position_contiguous hw, Int.toNat_natCast]
  rfl

end Plane

/-! ## §3. Packed planes at the entry points. -/

namespace Kernels

variable {depth : Depth} {block : BlockSize}

/-- **A packed block that is long enough and in range is let through.** -/
theorem admits_contiguous {data : Array (Sample s)} (hcover : block.area ≤ data.size)
    (hrange : ∀ x < block.width, ∀ y < block.height,
      (Sad.packed block.width data x y).toNat ≤ depth.max) :
    Admits depth block (Plane.contiguous data block.width) where
  fits := Plane.fits_contiguous block.width_le block.height_le block.height_pos hcover
  inRange := by
    intro x hx y hy
    rw [Plane.pixel_contiguous block.width_le]
    exact hrange x hx y hy

/-- A matrix in range is let through once it is packed. -/
theorem admits_contiguous_pack {f : Nat → Nat → Sample s}
    (hrange : ∀ x < block.width, ∀ y < block.height, (f x y).toNat ≤ depth.max) :
    Admits depth block
      (Plane.contiguous (Sad.pack block.width block.height f) block.width) := by
  refine admits_contiguous (Nat.le_of_eq (Sad.size_pack ..).symm) fun x hx y hy => ?_
  rw [Sad.packed_pack f hx hy]
  exact hrange x hx y hy

end Kernels

end PixelKernels
