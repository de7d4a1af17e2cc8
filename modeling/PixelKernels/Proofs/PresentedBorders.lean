/-
  PixelKernels.Proofs.PresentedBorders
  ────────────────────────────────────
  **EVERY SCENARIO OF AN INTRA HARNESS CAN BE PRESENTED.**

  However a border is filled, it has all samples that any kernel or the
  reference looks at, and all of them are in range (`fill_isFull`), so the
  reference predicts the closed form from it.  The destination has room for
  the block between its guards (`guarded_isView`).
-/
import PixelKernels.Conformance.IntraHarness
import PixelKernels.Proofs.FilledBuffers
import PixelKernels.Proofs.ReferencePrediction

namespace PixelKernels

variable {s : Storage} {depth : Depth}

/-! ## §1. Full borders. -/

/-- A border with all samples of a block of side `n`, of the depth. -/
structure IntraEdge.IsFull (edge : IntraEdge s) (depth : Depth) (n : Nat) : Prop where
  above : depth.Fills (2 * n) edge.above
  left : depth.Fills n edge.left
  corner : edge.topLeft.toNat ≤ depth.max

/-- A full border has what any kernel, and the reference, looks at. -/
theorem IntraEdge.IsFull.complete {edge : IntraEdge s} {n : Nat} (h : edge.IsFull depth n)
    (kernel : IntraKernel) : edge.Complete kernel n depth.max where
  above_size := by
    rw [h.above.size_eq]
    refine Nat.max_le.mpr ⟨by omega, ?_⟩
    cases kernel <;> simp only [IntraKernel.aboveLength] <;> omega
  left_size := h.left.size_eq.ge
  above_le := h.above.bounds
  left_le := h.left.bounds
  corner_le := h.corner

namespace IntraHarness

variable (harness : IntraHarness s)

theorem constantBorder_isFull {above left corner : Nat} (habove : above ≤ harness.depth.max)
    (hleft : left ≤ harness.depth.max) (hcorner : corner ≤ harness.depth.max) :
    ∃ edge, harness.constantBorder above left corner = .ok edge ∧
      edge.IsFull harness.depth harness.side := by
  unfold constantBorder
  rw [ofNat_of_le_max harness.stored habove, Outcome.ok_bind, ofNat_of_le_max harness.stored hleft,
    Outcome.ok_bind, ofNat_of_le_max harness.stored hcorner, Outcome.ok_bind]
  exact ⟨_, rfl, fills_replicate (toNat_ofNat_le habove) _, fills_replicate (toNat_ofNat_le hleft) _,
    toNat_ofNat_le hcorner⟩

theorem randomBorder_isFull :
    ∃ edge, harness.randomBorder = .ok edge ∧ edge.IsFull harness.depth harness.side := by
  obtain ⟨above, habove, hfirst⟩ := Draws.take_fills harness.stored harness.draws harness.drawn
    (2 * harness.side)
  obtain ⟨left, hleft, hsecond⟩ := Draws.take_fills harness.stored harness.draws
    (harness.drawn + 2 * harness.side) harness.side
  have hcorner : (harness.draws (harness.drawn + 3 * harness.side)).val ≤ harness.depth.max :=
    Nat.le_of_lt_succ (Fin.isLt _)
  unfold randomBorder
  simp only [habove, hleft, ofNat_of_le_max harness.stored hcorner, Outcome.ok_bind]
  exact ⟨_, rfl, hfirst, hsecond, toNat_ofNat_le hcorner⟩

theorem alternatingBorder_isFull :
    ∃ edge, harness.alternatingBorder = .ok edge ∧ edge.IsFull harness.depth harness.side := by
  have hmid := harness.depth.mid_le_max
  have htop := toNat_ofNat_le (s := s) (Nat.le_refl harness.depth.max)
  have hzero : (0 : Sample s).toNat ≤ harness.depth.max := Nat.zero_le _
  unfold alternatingBorder
  rw [ofNat_of_le_max harness.stored (Nat.le_refl _), Outcome.ok_bind,
    ofNat_of_le_max harness.stored hmid, Outcome.ok_bind]
  refine ⟨_, rfl, fills_ofFn fun i => ?_, fills_ofFn fun i => ?_, toNat_ofNat_le hmid⟩
  · split
    · exact htop
    · exact hzero
  · split
    · exact hzero
    · exact htop

/-- **The border can be filled for every scenario**, and the harness stays one for its block and
depth. -/
theorem fill_isFull (scenario : IntraScenario) :
    ∃ next edge, harness.fill scenario = .ok (next, edge) ∧
      (next.block = harness.block ∧ next.depth = harness.depth) ∧
      edge.IsFull harness.depth harness.side := by
  have hmax := Nat.le_refl harness.depth.max
  have hmid := harness.depth.mid_le_max
  have hzero := Nat.zero_le harness.depth.max
  have hkept : ∀ {border : Outcome (IntraEdge s)},
      (∃ edge, border = .ok edge ∧ edge.IsFull harness.depth harness.side) →
      ∃ next edge, (do pure (harness, ← border)) = (.ok (next, edge) : Outcome (IntraHarness s × IntraEdge s)) ∧
        (next.block = harness.block ∧ next.depth = harness.depth) ∧
        edge.IsFull harness.depth harness.side := by
    rintro _ ⟨edge, rfl, hfull⟩
    exact ⟨harness, edge, rfl, ⟨rfl, rfl⟩, hfull⟩
  cases scenario with
  | random =>
    obtain ⟨edge, hedge, hfull⟩ := harness.randomBorder_isFull
    simp only [fill, hedge, Outcome.ok_bind]
    exact ⟨_, edge, rfl, ⟨rfl, rfl⟩, hfull⟩
  | zero => exact hkept (harness.constantBorder_isFull hzero hzero hzero)
  | mid => exact hkept (harness.constantBorder_isFull hmid hmid hmid)
  | max => exact hkept (harness.constantBorder_isFull hmax hmax hmax)
  | aboveMaxLeftZero => exact hkept (harness.constantBorder_isFull hmax hzero hzero)
  | aboveZeroLeftMax => exact hkept (harness.constantBorder_isFull hzero hmax hmax)
  | alternating => exact hkept harness.alternatingBorder_isFull

/-! ## §2. The guarded destination. -/

variable {harness}

theorem side_isSide (harness : IntraHarness s) : Intra.IsSide harness.side :=
  Intra.isSide_of_supports harness.square

/-- **The block lies between its guards.** -/
theorem guarded_fits (harness : IntraHarness s) (sentinel : Sample s) :
    (harness.guarded sentinel).fits harness.side harness.side = .ok true := by
  obtain ⟨hsquare, hlow, hhigh⟩ := KernelKind.intra_supports harness.square
  have hstride : harness.stride = harness.block.width + 8 := rfl
  have hcells : harness.cellCount = (harness.block.height - 1) * harness.stride + 3 * harness.stride := by
    rw [cellCount, side, ← hsquare, Nat.mul_add, harness.block.mul_height]
    omega
  have hsmall : (harness.block.height - 1) * harness.stride ≤ 31 * 40 :=
    Nat.mul_le_mul (by omega) (by omega)
  have hsize : (Array.replicate harness.cellCount sentinel).size = harness.cellCount :=
    Array.size_replicate
  have hview : (harness.guarded sentinel).fits harness.block.width harness.block.height = .ok true := by
    refine Plane.fits_downwards (by omega) ?_
    rw [hsize, guardWidth]
    omega
  rwa [hsquare] at hview

/-! ## §3. Presentations. -/

/-- What a scenario shows, and what it takes for right. -/
structure Presents (harness : IntraHarness s) (kernel : IntraKernel) (scenario : IntraScenario)
    (next : IntraHarness s) (setting : Setting s) : Prop where
  fill_eq : harness.fill scenario = .ok (next, setting.edge)
  present_eq : harness.present kernel scenario = .ok (next, setting)
  block_eq : next.block = harness.block
  depth_eq : next.depth = harness.depth
  key_eq : setting.key = ⟨⟨.intra kernel, harness.block⟩, harness.depth⟩
  scenario_eq : setting.scenario = scenario
  sentinel_eq : setting.sentinel.toNat = harness.depth.max / 3
  /-- The block that is expected is the one of the reference. -/
  expected_eq :
    Reference.predict kernel harness.side setting.edge harness.depth.max = .ok setting.expected
  length_eq : setting.expected.length = harness.side * harness.side
  complete : setting.edge.Complete kernel harness.side harness.depth.max

/-- **Every scenario can be presented, whatever the stream draws.** -/
theorem present_presents (harness : IntraHarness s) (kernel : IntraKernel) (scenario : IntraScenario) :
    ∃ next setting, harness.Presents kernel scenario next setting := by
  obtain ⟨next, edge, hfill, ⟨hblock, hdepth⟩, hfull⟩ := harness.fill_isFull scenario
  have hcomplete := hfull.complete kernel
  have hthird : harness.depth.max / 3 ≤ harness.depth.max := Nat.div_le_self _ _
  have hexpected := Reference.predict_eq_values harness.side_isSide
    (Kernels.max_mem_maxima harness.stored) hcomplete
  generalize hcells : ((Reference.cells harness.side harness.side).map fun c =>
    Intra.value kernel harness.side edge harness.depth.max c.2 c.1) = expected at hexpected
  refine ⟨next, ⟨⟨⟨.intra kernel, harness.block⟩, harness.depth⟩, scenario, edge,
    BitVec.ofNat s.bits (harness.depth.max / 3), expected⟩, ?_⟩
  refine {
    fill_eq := hfill, present_eq := ?_, block_eq := hblock, depth_eq := hdepth, key_eq := rfl,
    scenario_eq := rfl, sentinel_eq := toNat_ofNat_of_le_max harness.stored hthird,
    expected_eq := hexpected, length_eq := ?_, complete := hcomplete }
  · unfold present sentinel
    simp only [hfill, hexpected, ofNat_of_le_max harness.stored hthird, Outcome.ok_bind]
    rfl
  · rw [← hcells]
    simp [Reference.cells]

end IntraHarness

end PixelKernels
