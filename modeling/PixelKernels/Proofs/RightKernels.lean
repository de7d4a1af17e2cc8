/-
  PixelKernels.Proofs.RightKernels
  ────────────────────────────────
  **WHEN A KERNEL IS RIGHT, AND THAT THE KERNELS OF THE LIBRARY ARE.**

  A difference kernel is right if it answers, on views with samples of the
  depth, with the exact cost, or with as much of it as a bounded cost owes
  (`KernelFn.CostsExactly`).  A predictor is right if it writes the block of
  the reference and nothing else (`KernelFn.PredictsExactly`).  Neither says
  how a kernel goes about it, and neither asks anything of a kernel where it
  would not be called.

  Every default of a slot is what some capabilities choose for it
  (`exists_choice_of_mem_defaults`), so what is known of the choices is known
  of the defaults.
-/
import PixelKernels.Proofs.AveragedCosts
import PixelKernels.Proofs.BoundedCosts
import PixelKernels.Proofs.FilledBuffers
import PixelKernels.Proofs.PredictorConformance

namespace PixelKernels

open Sad (cost mean packed)

variable {s : Storage} {depth : Depth} {block : BlockSize}

/-! ## §1. Right answers. -/

/-- A kernel that answers with the exact cost wherever a difference of this depth can be asked for;
predictors are not asked. -/
def KernelFn.CostsExactly (depth : Depth) (block : BlockSize) : KernelFn s → Prop
  | .sad run => ∀ source reference : Plane s, source.IsView depth block → reference.IsView depth block →
      run source reference = .ok (Sad.exact block source reference)
  | .sadX4 run => ∀ (source : Plane s) (references : Vector (Plane s) 4), source.IsView depth block →
      (∀ reference ∈ references, reference.IsView depth block) →
      Sad.Portable.commonStride references = true →
        run source references = .ok (references.map (Sad.exact block source))
  | .sadAvg run => ∀ (source reference : Plane s) (second : Array (Sample s)),
      source.IsView depth block → reference.IsView depth block → depth.Fills block.area second →
        run source reference second
          = .ok (Sad.exact block source (Plane.averaged block reference second))
  | .sadBounded run => ∀ (source reference : Plane s) (bound : Nat), source.IsView depth block →
      reference.IsView depth block → bound ≤ uint32Max →
        ∃ answer, run source reference bound = .ok answer ∧
          Sad.RespectsBound (Sad.exact block source reference) bound answer
  | .intra _ => True

/-- A buffer that came of a plane's by writing these cells over the block of side `n`, in raster order,
and nothing else. -/
structure Plane.Overwritten (p : Plane s) (n : Nat) (cells : List Nat) (buffer : Array (Sample s)) :
    Prop where
  size_eq : buffer.size = p.data.size
  inside : ∀ r < n, ∀ c < n, (buffer.getD (p.index c r).toNat 0).toNat = cells.getD (r * n + c) 0
  outside : ∀ i : Nat, (∀ r < n, ∀ c < n, (i : Int) ≠ p.index c r) → buffer[i]? = p.data[i]?

/-- A kernel that writes the block of the reference and nothing else, wherever a prediction of this
depth can be asked for in rows that stay apart; differences are not asked. -/
def KernelFn.PredictsExactly (depth : Depth) (kernel : IntraKernel) (n : Nat) : KernelFn s → Prop
  | .intra run => ∀ (destination : Plane s) (edge : IntraEdge s) (expected : List Nat),
      destination.base < 1 <<< 64 → destination.fits n n = .ok true →
      n ≤ destination.stride.natAbs → edge.Complete kernel n depth.max →
      Reference.predict kernel n edge depth.max = .ok expected →
        (run destination edge depth.max).outcome = .ok () ∧
          destination.Overwritten n expected (run destination edge depth.max).buffer
  | _ => True

/-! ## §2. The differences of the library. -/

section Differences

variable {source reference : Plane s} {second : Array (Sample s)}

/-- The exact cost is the sum over the samples that the kernels read. -/
theorem Plane.IsView.exact_eq (hs : source.IsView depth block) (hr : reference.IsView depth block) :
    Sad.exact block source reference
      = cost block.width block.height source.pixel reference.pixel :=
  (cost_eq_exact hs.admits hr.admits hs.base_lt hr.base_lt).symm

/-- The samples of a second predictor, taken as rows, are samples of its buffer. -/
theorem Depth.Fills.packed_le (h : depth.Fills block.area second) (x y : Nat) :
    (packed block.width second x y).toNat ≤ depth.max :=
  h.bounds.getD (Nat.zero_le _) _

/-- The averages with a second predictor are a view again. -/
theorem Plane.IsView.averaged (hr : reference.IsView depth block) (h : depth.Fills block.area second) :
    (Plane.averaged block reference second).IsView depth block where
  base_lt := by
    show 0 < 1 <<< 64
    decide
  admits := Kernels.admits_averaged hr.admits fun x _ y _ => h.packed_le x y

/-- **The exact cost against the averages is the sum over the averages of the samples.** -/
theorem Plane.IsView.exact_averaged (hs : source.IsView depth block) (hr : reference.IsView depth block)
    (h : depth.Fills block.area second) :
    Sad.exact block source (Plane.averaged block reference second)
      = cost block.width block.height source.pixel
          fun x y => mean (reference.pixel x y) (packed block.width second x y) := by
  rw [hs.exact_eq (hr.averaged h)]
  exact Sad.cost_congr (fun _ _ _ _ => rfl) fun x hx y hy => Plane.pixel_averaged hx hy

/-- Each default of a slot is what some capabilities choose. -/
theorem exists_choice_of_mem_defaults {summons : Bool} {slot : Slot} {implementation : Implementation s}
    (h : implementation ∈ Registry.defaults summons slot) :
    ∃ flags, implementation = Registry.choice ⟨flags, summons⟩ slot := by
  rcases List.mem_append.mp h with hwide | hportable
  · have hadmitted : CpuFlags.avx2.contains .avx2 = true := CpuFlags.contains_self .avx2
    refine ⟨.avx2, ?_⟩
    rw [Registry.choice, if_pos hadmitted, Option.mem_toList.mp hwide, Option.getD_some]
  · have hmissing : ¬ CpuFlags.none.contains .avx2 = true := by decide
    refine ⟨.none, ?_⟩
    rw [List.mem_singleton.mp hportable, Registry.choice, if_neg hmissing]

/-- **Every kernel that the library has for a slot costs exactly.** -/
theorem costsExactly_choice (processor : Processor) (slot : Slot) :
    (Registry.choice (s := s) processor slot).kernel.CostsExactly depth slot.block := by
  obtain ⟨kind, block⟩ := slot
  cases kind with
  | sad =>
    rw [kernel_choice_of_wide .sad rfl rfl, ite_usesWide_summons]
    intro source reference hs hr
    rw [hs.exact_eq hr]
    exact Kernels.run_sad processor hs.admits hr.admits
  | sadX4 =>
    rw [kernel_choice_of_wide .sadX4 rfl rfl]
    intro source references hs hr hstride
    have hanswer := Kernels.run_sadX4 processor hs.admits fun reference hin => (hr reference hin).admits
    rw [if_pos (Or.inr hstride)] at hanswer
    refine hanswer.trans (congrArg Except.ok (Vector.map_congr_left ?_))
    intro reference hin
    exact (hs.exact_eq (hr reference hin)).symm
  | sadAvg =>
    rw [kernel_choice_of_wide .sadAvg rfl rfl, ite_usesWide_summons]
    intro source reference second hs hr h
    rw [hs.exact_averaged hr h]
    exact Kernels.run_sadAvg processor hs.admits hr.admits h.size_eq.ge fun x _ y _ => h.packed_le x y
  | sadBounded =>
    rw [kernel_choice_of_wide .sadBounded rfl rfl, ite_usesWide_summons]
    intro source reference bound hs hr _
    obtain ⟨answer, hanswer, hmeets⟩ := Kernels.run_sadBounded processor hs.admits hr.admits bound
    rw [hs.exact_eq hr]
    exact ⟨answer, hanswer, hmeets.respects⟩
  | intra kernel =>
    have hsignature := Registry.signature_choice (s := s) processor ⟨.intra kernel, block⟩
    cases hkernel : (Registry.choice (s := s) processor ⟨.intra kernel, block⟩).kernel with
    | intra run => trivial
    | sad run | sadX4 run | sadAvg run | sadBounded run =>
      rw [hkernel] at hsignature
      cases hsignature

end Differences

/-! ## §3. The predictors of the library. -/

/-- **A plane whose rows stay apart is overwritten by the block that is written into it, and nowhere
else.** -/
theorem Plane.overwritten_paint {p : Plane s} {n : Nat} {rows : Block s} (hn : n < 2 ^ 63)
    (hbase : p.base < 1 <<< 64) (hfits : p.fits n n = .ok true) (hstride : n ≤ p.stride.natAbs)
    (hheight : rows.length = n) (hrows : ∀ row ∈ rows, row.length = n) :
    p.Overwritten n (rows.flatten.map BitVec.toNat) (p.paint rows).buffer := by
  have hholds := holds_of_fits hn hn hfits
  refine ⟨(paint_of_holds hholds hheight hrows).2, ?_, ?_⟩
  · intro r hr c hc
    have hread := pixel_paint hholds hstride hheight hrows hc (show r < rows.length by omega)
    rw [pixel, show ({ p with data := (p.paint rows).buffer } : Plane s).position c r = p.position c r
      from rfl, position_eq_index hholds hbase hr] at hread
    -- the cell in raster order is the one in its row
    have hcell : rows.flatten[r * n + c]? = rows[r][c]? := by
      rw [getElem?_flatten_of_length hc hrows, List.getElem?_eq_getElem (by omega)]
      rfl
    rw [hread, List.getD_eq_getElem?_getD, List.getD_eq_getElem?_getD, List.getElem?_map, hcell]
    cases rows[r][c]? <;> rfl
  · intro i hi
    refine getElem?_paintFrom_of_outside hholds rfl (by omega) hrows ?_
    intro r _ hr
    by_contra hin
    refine hi r hr (i - p.position 0 r).toNat (by omega) ?_
    rw [← position_eq_index hholds hbase hr, position_add]
    omega

/-- **Every predictor that the library has for a slot predicts exactly.** -/
theorem predictsExactly_of_mem_defaults {summons : Bool} {kernel : IntraKernel}
    {implementation : Implementation depth.storage}
    (hblock : (KernelKind.intra kernel).supports block = true)
    (h : implementation ∈ Registry.defaults summons ⟨.intra kernel, block⟩) :
    implementation.kernel.PredictsExactly depth kernel block.width := by
  obtain ⟨run, hrun, hintra⟩ := kernel_of_mem_defaults hblock h
  have hside := Intra.isSide_of_supports hblock
  have hmax := Kernels.max_mem_maxima (rfl : depth.storage = _)
  rw [hrun]
  intro destination edge expected hbase hfits hstride hedge hexpected
  have hwrites := writesCells_of_isIntraKernel hintra hblock hedge.supplies
  obtain ⟨rows, hcells, hheight, hrows, hpaint⟩ := hwrites.rows
  rw [Reference.predict_eq_values hside hmax hedge, ← hcells] at hexpected
  obtain rfl := Except.ok.inj hexpected
  refine ⟨hwrites.succeeds destination hfits, ?_⟩
  rw [hpaint destination hfits]
  have hn := hside.le
  exact Plane.overwritten_paint (by omega) hbase hfits hstride hheight hrows

end PixelKernels
