/-
  PixelKernels.Proofs.PresentedDifferences
  ────────────────────────────────────────
  **EVERY SCENARIO OF A DIFFERENCE HARNESS CAN BE PRESENTED.**

  Whatever a stream draws, the buffers of a harness can be filled, and every
  view that a scenario lays over them holds the block: sources of the usual
  and of half the stride, shifted sources, references with short and odd
  strides, references that run upwards, packed references.

    • Filling gives buffers of the right sizes with samples of the depth
      (`fill_filled`).
    • Sources and loose references end inside their buffers
      (`sourceView_isView`, `looseView_isView`).
    • Packing copies row `y` of reference `i` to row `i * height + y` of the
      packed buffer, so the packed views read what the loose ones read
      (`getD_packedRows`, `packedView_mirrors`).
    • So a presentation never fails, and what it expects of the references are
      the reference costs over the loose layout (`present_presents`).
-/
import PixelKernels.Conformance.SadHarness
import PixelKernels.Proofs.FilledBuffers

namespace PixelKernels

variable {s : Storage} {depth : Depth} {block : BlockSize}

/-! ## §1. Filled buffers. -/

/-- The buffers of a harness, with samples of its depth. -/
structure SadHarness.Filled (harness : SadHarness s) (buffers : SadBuffers s) : Prop where
  source : harness.depth.Fills harness.sourceSize buffers.source
  references : harness.depth.Fills harness.referencesSize buffers.references
  second : harness.depth.Fills harness.block.area buffers.second

namespace SadHarness

variable (harness : SadHarness s)

theorem randomBuffers_filled : ∃ buffers, harness.randomBuffers = .ok buffers ∧ harness.Filled buffers := by
  obtain ⟨source, hsource, hfirst⟩ := Draws.take_fills harness.stored harness.draws harness.drawn
    harness.sourceSize
  obtain ⟨references, hreferences, hmiddle⟩ := Draws.take_fills harness.stored harness.draws
    (harness.drawn + harness.sourceSize) harness.referencesSize
  obtain ⟨second, hsecond, hlast⟩ := Draws.take_fills harness.stored harness.draws
    (harness.drawn + harness.sourceSize + harness.referencesSize) harness.block.area
  refine ⟨⟨source, references, second⟩, ?_, hfirst, hmiddle, hlast⟩
  unfold randomBuffers
  simp only [hsource, hreferences, hsecond, Outcome.ok_bind]
  rfl

theorem constantBuffers_filled {source references : Nat} (hsource : source ≤ harness.depth.max)
    (hreferences : references ≤ harness.depth.max) :
    ∃ buffers, harness.constantBuffers source references = .ok buffers ∧ harness.Filled buffers := by
  unfold constantBuffers
  rw [ofNat_of_le_max harness.stored hsource, Outcome.ok_bind,
    ofNat_of_le_max harness.stored hreferences, Outcome.ok_bind]
  exact ⟨_, rfl, fills_replicate (toNat_ofNat_le hsource) _, fills_replicate (toNat_ofNat_le hreferences) _,
    fills_replicate (toNat_ofNat_le hreferences) _⟩

theorem checkerboard_fills {on off : Sample s} (hon : on.toNat ≤ depth.max) (hoff : off.toNat ≤ depth.max)
    (size stride : Nat) : depth.Fills size (checkerboard size stride on off) := by
  refine fills_ofFn fun i => ?_
  split
  · exact hon
  · exact hoff

theorem checkerBuffers_filled :
    ∃ buffers, harness.checkerBuffers = .ok buffers ∧ harness.Filled buffers := by
  have htop := toNat_ofNat_le (s := s) (Nat.le_refl harness.depth.max)
  have hzero : (0 : Sample s).toNat ≤ harness.depth.max := Nat.zero_le _
  unfold checkerBuffers
  rw [ofNat_of_le_max harness.stored (Nat.le_refl _), Outcome.ok_bind]
  exact ⟨_, rfl, checkerboard_fills htop hzero _ _, checkerboard_fills hzero htop _ _,
    checkerboard_fills hzero htop _ _⟩

/-- **The buffers can be filled for every scenario**, and the harness stays one for its block and
depth. -/
theorem fill_filled (scenario : SadScenario) :
    ∃ next buffers, harness.fill scenario = .ok (next, buffers) ∧
      (next.block = harness.block ∧ next.depth = harness.depth) ∧ harness.Filled buffers := by
  have hmax := Nat.le_refl harness.depth.max
  have hzero := Nat.zero_le harness.depth.max
  unfold fill
  split
  · obtain ⟨buffers, hbuffers, hfilled⟩ := harness.constantBuffers_filled hzero hmax
    rw [hbuffers]
    exact ⟨harness, buffers, rfl, ⟨rfl, rfl⟩, hfilled⟩
  · obtain ⟨buffers, hbuffers, hfilled⟩ := harness.constantBuffers_filled hmax hzero
    rw [hbuffers]
    exact ⟨harness, buffers, rfl, ⟨rfl, rfl⟩, hfilled⟩
  · obtain ⟨buffers, hbuffers, hfilled⟩ := harness.checkerBuffers_filled
    rw [hbuffers]
    exact ⟨harness, buffers, rfl, ⟨rfl, rfl⟩, hfilled⟩
  · obtain ⟨buffers, hbuffers, hfilled⟩ := harness.randomBuffers_filled
    rw [hbuffers]
    exact ⟨_, buffers, rfl, ⟨rfl, rfl⟩, hfilled⟩

/-! ## §2. Sources and loose references. -/

variable {harness}

/-- The buffers of a harness are far smaller than what a position can address. -/
theorem sizes_lt (harness : SadHarness s) :
    harness.sourceSize < 2 ^ 62 ∧ harness.referencesSize < 2 ^ 62 ∧ 4 * harness.block.area < 2 ^ 62 := by
  unfold sourceSize referencesSize sourceStride BlockSize.area
  cases harness.block <;> decide

/-- A row of the source has room for the block. -/
theorem width_le_sourceStride (harness : SadHarness s) : harness.block.width ≤ harness.sourceStride := by
  unfold sourceStride
  omega

theorem sourceView_isView {buffers : SadBuffers s} (h : harness.Filled buffers) (scenario : SadScenario) :
    (harness.sourceView scenario buffers).IsView harness.depth harness.block := by
  have hwidth := harness.width_le_sourceStride
  have hrows := harness.block.mul_height harness.sourceStride
  have hhalf : (harness.block.height - 1) * (harness.sourceStride / 2)
      ≤ (harness.block.height - 1) * harness.sourceStride :=
    Nat.mul_le_mul_left _ (Nat.div_le_self _ _)
  have hsize : buffers.source.size
      = harness.sourceStride * harness.block.height + harness.block.width := h.source.size_eq
  have hlt : buffers.source.size < 2 ^ 62 := h.source.size_eq.trans_lt harness.sizes_lt.1
  unfold sourceView
  split
  · exact Plane.isView_downwards h.source.bounds hlt (by omega)
  · exact Plane.isView_downwards h.source.bounds hlt (by omega)
  · exact Plane.isView_downwards h.source.bounds hlt (by omega)

/-- The part of the references that is one reference's own. -/
theorem references_room {buffers : SadBuffers s} (h : harness.Filled buffers) {i : Nat} (hi : i < 4) :
    i * harness.referenceStep + harness.referenceStep ≤ buffers.references.size := by
  have hsize : buffers.references.size = 4 * harness.referenceStep := by
    rw [h.references.size_eq, referencesSize, referenceStep, referenceStride, BlockSize.area]
    ring
  rw [hsize, ← Nat.succ_mul]
  exact Nat.mul_le_mul_right _ hi

theorem width_le_referenceStride (harness : SadHarness s) :
    harness.block.width ≤ harness.referenceStride := by
  unfold referenceStride
  omega

/-- A loose reference ends inside its own part. -/
theorem looseView_isView {buffers : SadBuffers s} (h : harness.Filled buffers) (scenario : SadScenario)
    {i : Nat} (hi : i < 4) :
    (harness.looseView scenario buffers i).IsView harness.depth harness.block := by
  have hwidth := harness.width_le_referenceStride
  have hown := references_room h hi
  have hrows : harness.referenceStep
      = (harness.block.height - 1) * harness.referenceStride + harness.referenceStride :=
    harness.block.mul_height _
  have hstrides : ∀ stride ≤ harness.referenceStride,
      (harness.block.height - 1) * stride ≤ (harness.block.height - 1) * harness.referenceStride :=
    fun stride hstride => Nat.mul_le_mul_left _ hstride
  have hhalf := hstrides (harness.referenceStride / 2) (Nat.div_le_self _ _)
  have hodd := hstrides (harness.referenceStride - 1) (Nat.sub_le _ _)
  have hlt : buffers.references.size < 2 ^ 62 := h.references.size_eq.trans_lt harness.sizes_lt.2.1
  unfold looseView
  split
  · exact Plane.isView_downwards h.references.bounds hlt (by omega)
  · exact Plane.isView_downwards h.references.bounds hlt (by omega)
  · exact Plane.isView_upwards h.references.bounds hlt (by omega)
  · exact Plane.isView_downwards h.references.bounds hlt (by omega)

/-! ## §3. Packed references. -/

/-- Where the rows of the four references start, in the order in which they are packed. -/
def rowStarts (harness : SadHarness s) : List Nat :=
  (List.range 4).flatMap fun i => (List.range harness.block.height).map fun y =>
    i * harness.referenceStep + y * harness.referenceStride

/-- The rows of the four references, in that order. -/
def packedRows (harness : SadHarness s) (buffers : SadBuffers s) : List (List (Sample s)) :=
  harness.rowStarts.map fun start =>
    (List.range harness.block.width).map fun x => buffers.references.getD (start + x) 0

theorem length_rowStarts (harness : SadHarness s) :
    harness.rowStarts.length = 4 * harness.block.height := by
  unfold rowStarts
  simp
  omega

/-- Row `y` of reference `i` is packed as row `i * height + y`. -/
theorem getElem?_rowStarts {i y : Nat} (hi : i < 4) (hy : y < harness.block.height) :
    harness.rowStarts[i * harness.block.height + y]?
      = some (i * harness.referenceStep + y * harness.referenceStride) := by
  rw [rowStarts, List.flatMap_def, getElem?_flatten_of_length hy]
  · simp [hi, hy]
  · simp

theorem length_of_mem_packedRows {buffers : SadBuffers s} :
    ∀ row ∈ harness.packedRows buffers, row.length = harness.block.width := by
  intro row hin
  obtain ⟨_, _, rfl⟩ := List.mem_map.mp hin
  simp

/-- **Packing never fails**: every row that is packed lies in the references. -/
theorem packed_eq {buffers : SadBuffers s} (h : harness.Filled buffers) :
    harness.packed buffers = .ok (harness.packedRows buffers).flatten.toArray := by
  have hread : ∀ start ∈ harness.rowStarts, slice buffers.references start harness.block.width
      = .ok ((List.range harness.block.width).map fun x => buffers.references.getD (start + x) 0) := by
    intro start hin
    obtain ⟨i, hi, hrow⟩ := List.mem_flatMap.mp hin
    obtain ⟨y, hy, rfl⟩ := List.mem_map.mp hrow
    -- a row starts at most a stride before the end of its reference
    have hown := references_room h (List.mem_range.mp hi)
    have hwidth := harness.width_le_referenceStride
    have hlast : y * harness.referenceStride + harness.referenceStride ≤ harness.referenceStep :=
      Sad.packed_row_le (List.mem_range.mp hy)
    exact slice_eq_map_range (by omega) 0
  show (harness.rowStarts.mapM fun start => slice buffers.references start harness.block.width) >>= _ = _
  rw [Outcome.mapM_of_forall_ok hread]
  rfl

theorem packedRows_fills {buffers : SadBuffers s} (h : harness.Filled buffers) :
    harness.depth.Fills (4 * harness.block.area) (harness.packedRows buffers).flatten.toArray where
  size_eq := by
    rw [List.size_toArray, length_flatten_of_length length_of_mem_packedRows, packedRows, List.length_map,
      length_rowStarts, BlockSize.area]
    ring
  bounds := by
    intro v hv
    obtain ⟨row, hin, hv⟩ := List.mem_flatten.mp (List.mem_toArray.mp hv)
    obtain ⟨start, _, rfl⟩ := List.mem_map.mp hin
    obtain ⟨x, _, rfl⟩ := List.mem_map.mp hv
    exact h.references.bounds.getD (Nat.zero_le _) _

/-- **Packing keeps every sample of the four blocks.** -/
theorem getD_packedRows {buffers : SadBuffers s} {i x y : Nat} (hi : i < 4)
    (hx : x < harness.block.width) (hy : y < harness.block.height) :
    (harness.packedRows buffers).flatten.toArray.getD (i * harness.block.area + y * harness.block.width + x) 0
      = buffers.references.getD (i * harness.referenceStep + y * harness.referenceStride + x) 0 := by
  have hat : i * harness.block.area + y * harness.block.width + x
      = (i * harness.block.height + y) * harness.block.width + x := by
    rw [BlockSize.area]
    ring
  rw [hat, Array.getD_eq_getD_getElem?, List.getElem?_toArray,
    getElem?_flatten_of_length hx length_of_mem_packedRows, packedRows, List.getElem?_map,
    getElem?_rowStarts hi hy]
  simp [hx]

/-- The stride of a loose reference does not depend on which of the four it is. -/
theorem stride_looseView (scenario : SadScenario) (buffers : SadBuffers s) (i j : Nat) :
    (harness.looseView scenario buffers i).stride = (harness.looseView scenario buffers j).stride := by
  cases scenario <;> rfl

/-- Views with strides that do not depend on the index have a common stride. -/
theorem commonStride_ofFn {view : Fin 4 → Plane s} (h : ∀ i j, (view i).stride = (view j).stride) :
    Sad.Portable.commonStride (Vector.ofFn view) = true := by
  rw [Sad.Portable.commonStride_eq_true_iff]
  intro p hp q hq
  obtain ⟨i, rfl⟩ := Vector.mem_ofFn.mp hp
  obtain ⟨j, rfl⟩ := Vector.mem_ofFn.mp hq
  exact h i j

/-- What a view of the references is to a loose one: it can be shown, and it reads the same. -/
structure Mirrors (harness : SadHarness s) (view loose : Plane s) : Prop where
  isView : view.IsView harness.depth harness.block
  pixel_eq : ∀ x < harness.block.width, ∀ y < harness.block.height, view.pixel x y = loose.pixel x y

/-- A packed reference reads what the loose one reads. -/
theorem packedView_mirrors {buffers : SadBuffers s} (h : harness.Filled buffers) (i : Fin 4) :
    harness.Mirrors
      ⟨(harness.packedRows buffers).flatten.toArray, i.val * harness.block.area, harness.block.width⟩
      (harness.looseView .tightRef buffers i.val) := by
  have hrows : harness.block.area = (harness.block.height - 1) * harness.block.width + harness.block.width :=
    harness.block.mul_height _
  have hown : i.val * harness.block.area + harness.block.area ≤ 4 * harness.block.area := by
    rw [← Nat.succ_mul]
    exact Nat.mul_le_mul_right _ i.isLt
  have hsizes := harness.sizes_lt
  have hroom := references_room h i.isLt
  have hreferences := h.references.size_eq
  have hfills := packedRows_fills h
  have htight := hfills.size_eq
  refine ⟨Plane.isView_downwards hfills.bounds (by omega) (by omega), ?_⟩
  intro x hx y hy
  rw [Plane.pixel_downwards (by omega), getD_packedRows i.isLt hx hy]
  exact (Plane.pixel_downwards (by omega) _ _ _).symm

/-- **The references can be laid out for every scenario**, and however they are, each view reads what
the loose one reads and all four have one stride. -/
theorem referenceViews_of_filled {buffers : SadBuffers s} (h : harness.Filled buffers)
    (scenario : SadScenario) :
    ∃ views, harness.referenceViews scenario buffers = .ok views ∧
      (∀ i : Fin 4, harness.Mirrors (views.get i) (harness.looseView scenario buffers i.val)) ∧
      Sad.Portable.commonStride views = true := by
  unfold referenceViews
  split
  · rw [packed_eq h]
    refine ⟨_, rfl, ?_, commonStride_ofFn fun _ _ => rfl⟩
    intro i
    simpa using packedView_mirrors h i
  · refine ⟨_, rfl, ?_, commonStride_ofFn fun i j => stride_looseView scenario buffers i.val j.val⟩
    intro i
    simpa using ⟨looseView_isView h scenario i.isLt, fun _ _ _ _ => rfl⟩

/-! ## §4. Presentations. -/

/-- What a scenario shows, over which buffers, and what it takes for right. -/
structure Presents (harness : SadHarness s) (kind : KernelKind) (scenario : SadScenario)
    (buffers : SadBuffers s) (next : SadHarness s) (setting : Setting s) : Prop where
  fill_eq : harness.fill scenario = .ok (next, buffers)
  present_eq : harness.present kind scenario = .ok (next, setting)
  block_eq : next.block = harness.block
  depth_eq : next.depth = harness.depth
  key_eq : setting.key = ⟨⟨kind, harness.block⟩, harness.depth⟩
  scenario_eq : setting.scenario = scenario
  source_eq : setting.source = harness.sourceView scenario buffers
  loose_eq : ∀ i : Fin 4, setting.loose.get i = harness.looseView scenario buffers i.val
  views_eq : harness.referenceViews scenario buffers = .ok setting.views
  second_eq : setting.second = buffers.second
  /-- The costs that are expected are those of the loose layout. -/
  exact_eq : ∀ i : Fin 4,
    Reference.sad harness.block setting.source (setting.loose.get i) = .ok (setting.exact.get i)
  source_isView : setting.source.IsView harness.depth harness.block
  loose_isView : ∀ i : Fin 4, (setting.loose.get i).IsView harness.depth harness.block
  mirrors : ∀ i : Fin 4, harness.Mirrors (setting.views.get i) (setting.loose.get i)
  common : Sad.Portable.commonStride setting.views = true
  second_fills : harness.depth.Fills harness.block.area setting.second

/-- **Every scenario can be presented, whatever the stream draws.** -/
theorem present_presents (harness : SadHarness s) (kind : KernelKind) (scenario : SadScenario) :
    ∃ buffers next setting, harness.Presents kind scenario buffers next setting := by
  obtain ⟨next, buffers, hfill, ⟨hblock, hdepth⟩, hfilled⟩ := harness.fill_filled scenario
  obtain ⟨views, hviews, hmirrors, hcommon⟩ := referenceViews_of_filled hfilled scenario
  have hsource := sourceView_isView hfilled scenario
  have hloose := fun i : Fin 4 => looseView_isView hfilled scenario i.isLt
  generalize hreferences :
    (Vector.ofFn fun i : Fin 4 => harness.looseView scenario buffers i.val) = loose
  have hat : ∀ i : Fin 4, loose.get i = harness.looseView scenario buffers i.val := by
    intro i
    simp [← hreferences]
  have hcost : ∀ reference ∈ loose,
      Reference.sad harness.block (harness.sourceView scenario buffers) reference
        = .ok (Sad.cost harness.block.width harness.block.height
            (harness.sourceView scenario buffers).pixel reference.pixel) := by
    intro reference hin
    rw [← hreferences] at hin
    obtain ⟨i, rfl⟩ := Vector.mem_ofFn.mp hin
    exact Sad.reference_sad_of_fits hsource.admits.fits (hloose i).admits.fits
  have hcosts := Outcome.mapM_vector_of_forall_ok hcost
  generalize hmap : (loose.map fun reference => Sad.cost harness.block.width harness.block.height
    (harness.sourceView scenario buffers).pixel reference.pixel) = costs at hcosts
  have hcostAt : ∀ i : Fin 4, Reference.sad harness.block (harness.sourceView scenario buffers) (loose.get i)
      = .ok (costs.get i) := by
    intro i
    have hin : loose.get i ∈ loose := Vector.getElem_mem i.isLt
    rw [hcost _ hin, ← hmap]
    simp
  refine ⟨buffers, next, ⟨⟨⟨kind, harness.block⟩, harness.depth⟩, scenario,
    harness.sourceView scenario buffers, views, loose, buffers.second, costs⟩, ?_⟩
  refine {
    fill_eq := hfill, present_eq := ?_, block_eq := hblock, depth_eq := hdepth, key_eq := rfl,
    scenario_eq := rfl, source_eq := rfl, loose_eq := hat, views_eq := hviews, second_eq := rfl,
    exact_eq := hcostAt, source_isView := hsource, loose_isView := ?_, mirrors := ?_,
    common := hcommon, second_fills := hfilled.second }
  · unfold present
    simp only [hfill, hviews, hreferences, hcosts, Outcome.ok_bind]
    rfl
  · intro i
    rw [hat i]
    exact hloose i
  · intro i
    rw [hat i]
    exact hmirrors i

end SadHarness

end PixelKernels
