/-
  PixelKernels.Proofs.FilledBuffers
  ─────────────────────────────────
  **BUFFERS OF SAMPLES, AND THE BLOCKS THAT LIE IN THEM.**

  A harness fills its buffers with samples of its depth and lays blocks over
  them.  `Depth.Fills` is what is known of such a buffer, whether its samples
  were drawn, are all the same or form a pattern; every draw of a stream is a
  sample of the depth, so drawing never fails (`Draws.take_fills`).

  A block lies in a buffer if its first and its last row do.  So a view is
  known to fit from one inequality, downwards (`isView_downwards`) as well as
  upwards (`isView_upwards`).
-/
import PixelKernels.Conformance.Draws
import PixelKernels.Proofs.Reconstruction
import PixelKernels.Proofs.RectangleChecks

namespace PixelKernels

variable {s : Storage} {depth : Depth} {block : BlockSize}

/-! ## §1. Buffers of samples. -/

/-- As many samples as asked for, all of the depth. -/
structure Depth.Fills (depth : Depth) (size : Nat) (samples : Array (Sample s)) : Prop where
  size_eq : samples.size = size
  bounds : depth.Bounds samples

theorem fills_replicate {v : Sample s} (h : v.toNat ≤ depth.max) (size : Nat) :
    depth.Fills size (Array.replicate size v) where
  size_eq := Array.size_replicate
  bounds := by
    intro w hw
    obtain ⟨_, rfl⟩ := Array.mem_replicate.mp hw
    exact h

theorem fills_ofFn {size : Nat} {f : Fin size → Sample s} (h : ∀ i, (f i).toNat ≤ depth.max) :
    depth.Fills size (Array.ofFn f) where
  size_eq := Array.size_ofFn
  bounds := by
    intro v hv
    obtain ⟨i, rfl⟩ := Array.mem_ofFn.mp hv
    exact h i

/-- **Every draw of a stream is a sample of the depth**, so as many as asked for can be taken. -/
theorem Draws.take_fills (hdepth : depth.storage = s) (draws : Draws depth) (start size : Nat) :
    ∃ samples : Array (Sample s), draws.take s start size = .ok samples ∧ depth.Fills size samples := by
  have hdraw : ∀ i, (draws i).val ≤ depth.max := fun i => Nat.le_of_lt_succ (draws i).isLt
  refine ⟨((List.range size).map fun i => BitVec.ofNat s.bits (draws (start + i)).val).toArray, ?_,
    by simp, ?_⟩
  · rw [Draws.take, Outcome.mapM_of_forall_ok fun i _ => ofNat_of_le_max hdepth (hdraw (start + i))]
    rfl
  · intro v hv
    obtain ⟨i, _, rfl⟩ := List.mem_map.mp (List.mem_toArray.mp hv)
    exact toNat_ofNat_le (hdraw (start + i))

/-! ## §2. Views that fit. -/

/-- Rows of a block, the last one apart. -/
theorem BlockSize.mul_height (block : BlockSize) (stride : Nat) :
    stride * block.height = (block.height - 1) * stride + stride := by
  rw [← Nat.succ_mul, Nat.succ_eq_add_one, Nat.sub_add_cancel block.height_pos, Nat.mul_comm]

namespace Plane

/-- **A block fits if its first and its last row do.** -/
theorem fits_of_ends {p : Plane s} (hsize : p.data.size < 2 ^ 62)
    (hfirst : p.base + block.width ≤ p.data.size)
    (hlow : 0 ≤ p.base + (block.height - 1 : Nat) * p.stride)
    (hhigh : p.base + (block.height - 1 : Nat) * p.stride + block.width ≤ p.data.size) :
    p.fits block.width block.height = .ok true := by
  have hw := block.width_le
  have hh := block.height_le
  have hpos := block.height_pos
  have hlast : lastRow block.height = block.height - 1 := by
    unfold lastRow
    omega
  refine ((decides (by omega) (by omega) (by omega)).accepted_iff).2.mpr ⟨⟨?_, ?_, ?_⟩, rowsInside_iff.mpr ?_⟩
  all_goals
    simp only [InInt64, reach, index_row, hlast]
    omega

/-- A view that kernels can be shown: its base is a size, and the block in it is let through. -/
structure IsView (p : Plane s) (depth : Depth) (block : BlockSize) : Prop where
  base_lt : p.base < 1 <<< 64
  admits : Kernels.Admits depth block p

/-- What a view reads are samples of its buffer, so only its fit is in question. -/
theorem isView_of_fits {p : Plane s} (hbounds : depth.Bounds p.data) (hbase : p.base < 1 <<< 64)
    (hfits : p.fits block.width block.height = .ok true) : p.IsView depth block where
  base_lt := hbase
  admits := ⟨hfits, fun _ _ _ _ => hbounds.getD (Nat.zero_le _) _⟩

/-- Rows downwards, from a position of the buffer on. -/
theorem fits_downwards {data : Array (Sample s)} {base stride : Nat} (hsize : data.size < 2 ^ 62)
    (hend : base + (block.height - 1) * stride + block.width ≤ data.size) :
    (⟨data, base, stride⟩ : Plane s).fits block.width block.height = .ok true := by
  have hrise : ((block.height - 1 : Nat) : Int) * (stride : Int)
      = ((block.height - 1) * stride : Nat) := by
    push_cast
    rfl
  refine fits_of_ends hsize ?_ ?_ ?_
  · show base + block.width ≤ data.size
    omega
  · show 0 ≤ (base : Int) + _ * (stride : Int)
    omega
  · show (base : Int) + _ * (stride : Int) + _ ≤ (data.size : Int)
    omega

theorem isView_downwards {data : Array (Sample s)} {base stride : Nat} (hbounds : depth.Bounds data)
    (hsize : data.size < 2 ^ 62)
    (hend : base + (block.height - 1) * stride + block.width ≤ data.size) :
    (⟨data, base, stride⟩ : Plane s).IsView depth block :=
  isView_of_fits hbounds (show base < 1 <<< 64 by omega) (fits_downwards hsize hend)

/-- The same rows upwards, from the last one on. -/
theorem isView_upwards {data : Array (Sample s)} {start stride : Nat} (hbounds : depth.Bounds data)
    (hsize : data.size < 2 ^ 62)
    (hend : start + (block.height - 1) * stride + block.width ≤ data.size) :
    (⟨data, start + (block.height - 1) * stride, -(stride : Int)⟩ : Plane s).IsView depth block := by
  have hrise : ((block.height - 1 : Nat) : Int) * -(stride : Int)
      = -(((block.height - 1) * stride : Nat) : Int) := by
    push_cast
    exact Int.mul_neg _ _
  refine isView_of_fits hbounds (show start + (block.height - 1) * stride < 1 <<< 64 by omega)
    (fits_of_ends hsize ?_ ?_ ?_)
  · show start + (block.height - 1) * stride + block.width ≤ data.size
    omega
  · show 0 ≤ ((start + (block.height - 1) * stride : Nat) : Int) + _ * -(stride : Int)
    omega
  · show ((start + (block.height - 1) * stride : Nat) : Int) + _ * -(stride : Int) + _ ≤ (data.size : Int)
    omega

/-- Position of a sample under a stride downwards. -/
theorem pixel_downwards {data : Array (Sample s)} {base : Nat} (hbase : base < 1 <<< 63)
    (stride x y : Nat) :
    (⟨data, base, stride⟩ : Plane s).pixel x y = data.getD (base + y * stride + x) 0 := by
  have hat : (⟨data, base, stride⟩ : Plane s).position x y = (base + y * stride + x : Nat) := by
    unfold position
    rw [signed_of_lt hbase]
    push_cast
    rfl
  rw [pixel, hat, Int.toNat_natCast]

end Plane

end PixelKernels
