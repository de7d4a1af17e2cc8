/-
  PixelKernels.Proofs.Bundles
  ───────────────────────────
  **WHICH KERNEL A BUNDLE RUNS AT A LEVEL.**

  A bundle can be had at every level, and its tables hold the default choices
  for the capabilities that the level admits (`Kernels.forProcessor_selects`).
  The wide implementation of a slot is selected exactly if 256-bit integers are
  admitted and the block is wide enough (`usesWide`).  Its kernel runs if it is
  also given its token (`runsWide`); otherwise the portable one does.  A slot
  that is not in the catalog has no entry.
-/
import PixelKernels.Proofs.DefaultSelection
import PixelKernels.Proofs.WidePrediction

namespace PixelKernels

variable {s : Storage}

/-! ## §1. Bundles. -/

/-- Every table of a bundle holds the default choices for a processor. -/
def Kernels.Selects (kernels : Kernels) (processor : Processor) : Prop :=
  ∀ {s : Storage} {depth : Depth}, depth.storage = s →
    ∃ table, kernels.table s depth = .ok table ∧ table.depth = depth ∧
      table.Holds (defaultChoice processor)

/-- **A bundle can be had for every processor.** -/
theorem Kernels.forProcessor_selects (level : CpuLevel) (processor : Processor) :
    ∃ kernels, Kernels.forProcessor level processor = .ok kernels ∧ kernels.level = level ∧
      kernels.Selects processor := by
  obtain ⟨eight, height, hdepth₈, hholds₈⟩ :=
    buildTable_defaults (show Depth.eight.storage = .byte from rfl) processor
  obtain ⟨ten, hten, hdepth₁₀, hholds₁₀⟩ :=
    buildTable_defaults (show Depth.ten.storage = .word from rfl) processor
  obtain ⟨twelve, htwelve, hdepth₁₂, hholds₁₂⟩ :=
    buildTable_defaults (show Depth.twelve.storage = .word from rfl) processor
  refine ⟨⟨level, eight, ten, twelve⟩, ?_, rfl, ?_⟩
  · rw [forProcessor, height, Outcome.ok_bind, hten, Outcome.ok_bind, htwelve]
    rfl
  · -- each depth is looked up in the table that was built for it
    intro s depth hdepth
    subst hdepth
    cases depth with
    | eight => exact ⟨eight, rfl, hdepth₈, hholds₈⟩
    | ten => exact ⟨ten, rfl, hdepth₁₀, hholds₁₀⟩
    | twelve => exact ⟨twelve, rfl, hdepth₁₂, hholds₁₂⟩

/-- **A bundle can be had at every level.** -/
theorem Kernels.atLevel_selects (processor : Processor) (level : CpuLevel) :
    ∃ kernels, Kernels.atLevel processor level = .ok kernels ∧
      kernels.Selects (processor.upTo level) := by
  obtain ⟨kernels, hkernels, -, hselects⟩ := forProcessor_selects level (processor.upTo level)
  exact ⟨kernels, hkernels, hselects⟩

theorem Kernels.selects_of_forProcessor {level : CpuLevel} {processor : Processor} {kernels : Kernels}
    (h : Kernels.forProcessor level processor = .ok kernels) :
    kernels.level = level ∧ kernels.Selects processor := by
  obtain ⟨found, hfound, hlevel, hselects⟩ := forProcessor_selects level processor
  rw [h] at hfound
  cases hfound
  exact ⟨hlevel, hselects⟩

theorem Kernels.selects_of_atLevel {processor : Processor} {level : CpuLevel} {kernels : Kernels}
    (h : Kernels.atLevel processor level = .ok kernels) : kernels.Selects (processor.upTo level) :=
  (selects_of_forProcessor h).2

/-- A cell that does not store the depth is refused by every bundle alike. -/
theorem Kernels.table_of_ne (kernels : Kernels) {depth : Depth} (h : depth.storage ≠ s) :
    kernels.table s depth = .error (.violation (.wrongStorage depth s)) := by
  cases s <;> cases depth <;> first | rfl | exact absurd rfl h

/-! ## §2. The kernel that an entry holds. -/

/-- Whether these capabilities select the wide implementation of a difference at this size. -/
def usesWide (flags : CpuFlags) (block : BlockSize) : Bool :=
  flags.contains .avx2 && decide (16 ≤ block.width)

/-- Whether a processor runs the wide kernel of a difference at this size: it is selected, and it is
given its token. -/
def runsWide (processor : Processor) (block : BlockSize) : Bool :=
  usesWide processor.flags block && processor.summons

/-- Where no token is missing, what is selected is what runs. -/
theorem runsWide_of_grantsToken {processor : Processor} (h : processor.GrantsToken)
    (block : BlockSize) : runsWide processor block = usesWide processor.flags block := by
  unfold runsWide
  cases hselected : usesWide processor.flags block with
  | false => rfl
  | true => exact h (Bool.and_eq_true_iff.mp hselected).1

theorem runsWide_of_not_summons {processor : Processor} (h : processor.summons = false)
    (block : BlockSize) : runsWide processor block = false := by
  rw [runsWide, h, Bool.and_false]

/-- What is selected and hands over without its token runs as if the token had been part of the
choice. -/
theorem ite_usesWide_summons {α : Type} (processor : Processor) (block : BlockSize)
    (wide portable : α) :
    (if usesWide processor.flags block then if processor.summons then wide else portable
      else portable) = if runsWide processor block then wide else portable := by
  unfold runsWide
  cases usesWide processor.flags block <;> rfl

theorem kernel_choice (processor : Processor) (slot : Slot) :
    (Registry.choice (s := s) processor slot).kernel
      = if processor.flags.contains .avx2 then
          (wideKernel? processor.summons slot).getD (portableKernel slot)
        else portableKernel slot := by
  unfold Registry.choice wideImplementation?
  cases wideKernel? (s := s) processor.summons slot <;> split <;> rfl

/-- A slot of a difference holds what its wide implementation enters, or its portable kernel. -/
theorem kernel_choice_of_wide {α : Type} (f : α → KernelFn s) {processor : Processor} {slot : Slot}
    {entered portable : α}
    (hwide : wideKernel? processor.summons slot
      = if slot.block.width < 16 then none else some (f entered))
    (hportable : portableKernel slot = f portable) :
    (Registry.choice (s := s) processor slot).kernel
      = f (if usesWide processor.flags slot.block then entered else portable) := by
  rw [kernel_choice, hwide, hportable, usesWide]
  -- too narrow a block leaves the portable kernel whatever the capabilities
  by_cases hw : slot.block.width < 16
  · rw [if_pos hw, decide_eq_false (by omega), Bool.and_false, if_neg Bool.false_ne_true,
      Option.getD_none, ite_self]
  · rw [if_neg hw, decide_eq_true (by omega), Bool.and_true, Option.getD_some]
    exact (apply_ite f _ _ _).symm

/-- One of the predictors that the library has for an intra kernel at a size. -/
def IsIntraKernel (kernel : IntraKernel) (block : BlockSize) (run : IntraFn s) : Prop :=
  run = Intra.Portable.predict kernel block.width ∨
    Intra.Wide.predict? kernel block.width = some run ∧ Intra.Wide.IsWideSide block.width

theorem isWideSide_of_supports {kernel : IntraKernel} {block : BlockSize}
    (h : (KernelKind.intra kernel).supports block = true) (hw : 16 ≤ block.width) :
    Intra.Wide.IsWideSide block.width := by
  cases block <;> simp [KernelKind.supports, BlockSize.width] at h hw
  · exact .inl rfl
  · exact .inr rfl

/-- Every default implementation of an intra slot runs one of the predictors for it. -/
theorem kernel_of_mem_defaults {summons : Bool} {kernel : IntraKernel} {block : BlockSize}
    {implementation : Implementation s} (hblock : (KernelKind.intra kernel).supports block = true)
    (h : implementation ∈ Registry.defaults summons ⟨.intra kernel, block⟩) :
    ∃ run, implementation.kernel = .intra run ∧ IsIntraKernel kernel block run := by
  rcases List.mem_append.mp h with hwide | hportable
  · -- a wide kernel is only there for blocks of at least sixteen columns
    obtain ⟨_, hsome, rfl⟩ := Option.map_eq_some_iff.mp (Option.mem_toList.mp hwide)
    simp only [wideKernel?] at hsome
    split at hsome
    · cases hsome
    · next hw =>
      obtain ⟨run, hrun, rfl⟩ := Option.map_eq_some_iff.mp hsome
      -- without its token the wide implementation runs the portable predictor
      cases summons with
      | true => exact ⟨run, rfl, .inr ⟨hrun, isWideSide_of_supports hblock (by omega)⟩⟩
      | false => exact ⟨_, rfl, .inl rfl⟩
  · rw [List.mem_singleton.mp hportable]
    exact ⟨_, rfl, .inl rfl⟩

theorem choice_mem_defaults (processor : Processor) (slot : Slot) :
    Registry.choice processor slot ∈ Registry.defaults (s := s) processor.summons slot :=
  List.mem_of_find?_eq_some (Registry.find?_defaults processor slot)

/-- The kernel for four references in a table that a processor selects.  Where the wide one is selected
and not given its token, all planes are looked at before the portable one looks at the strides. -/
def sadX4Kernel (processor : Processor) (block : BlockSize) : SadX4Fn s :=
  if usesWide processor.flags block then
    if processor.summons then Sad.Wide.sadX4 block.width block.height
    else sadX4WithoutToken block.width block.height
  else Sad.Portable.sadX4 block.width block.height

namespace Table

/-- An entry is found once the slot is known to hold its kernel. -/
theorem entry_of_map_eq_some {α : Type} {kind : KernelKind} {block : BlockSize} {run? : Option α}
    {f : α → KernelFn s} (hf : Function.Injective f) {run : α} (h : run?.map f = some (f run)) :
    entry kind block run? = .ok run := by
  obtain ⟨found, rfl, hfound⟩ := Option.map_eq_some_iff.mp h
  rw [hf hfound]
  rfl

variable {table : Table s} {processor : Processor} (h : table.Holds (defaultChoice processor))
include h

theorem kernelAt_of_supported {slot : Slot} (hslot : slot.supported = true) :
    table.kernelAt slot = some (Registry.choice processor slot).kernel := by
  rw [h.kernelAt_eq, defaultChoice, if_pos hslot]
  rfl

theorem kernelAt_of_not_supported {slot : Slot} (hslot : ¬ slot.supported = true) :
    table.kernelAt slot = none := by
  rw [h.kernelAt_eq, defaultChoice, if_neg hslot]
  rfl

/-- **The entry of a difference is what its wide implementation enters or its portable kernel, and there
is one exactly at the kind's sizes.** -/
theorem entry_eq {α : Type} {f : α → KernelFn s} (hf : Function.Injective f) (kind : KernelKind)
    {block : BlockSize} {run? : Option α} {entered portable : α}
    (hrun : table.kernelAt ⟨kind, block⟩ = run?.map f)
    (hwide : wideKernel? processor.summons ⟨kind, block⟩
      = if block.width < 16 then none else some (f entered))
    (hportable : portableKernel ⟨kind, block⟩ = f portable) :
    entry kind block run? = (do
      Outcome.require (kind.supports block) (.violation (.noKernel kind block))
      pure (if usesWide processor.flags block then entered else portable)) := by
  by_cases hslot : Slot.supported ⟨kind, block⟩ = true
  · have hkernel := kernelAt_of_supported h hslot
    rw [hrun, kernel_choice_of_wide f hwide hportable] at hkernel
    rw [show kind.supports block = true from hslot]
    exact entry_of_map_eq_some hf hkernel
  · have hkernel := kernelAt_of_not_supported h hslot
    rw [hrun] at hkernel
    rw [show kind.supports block = false from Bool.eq_false_of_not_eq_true hslot,
      Option.map_eq_none_iff.mp hkernel]
    rfl

/-- The entry of a difference whose wide implementation hands over to the portable kernel. -/
theorem entry_eq_of_handsOver {α : Type} {f : α → KernelFn s} (hf : Function.Injective f)
    (kind : KernelKind) {block : BlockSize} {run? : Option α} {wide portable : α}
    (hrun : table.kernelAt ⟨kind, block⟩ = run?.map f)
    (hwide : wideKernel? processor.summons ⟨kind, block⟩
      = if block.width < 16 then none else some (f (if processor.summons then wide else portable)))
    (hportable : portableKernel ⟨kind, block⟩ = f portable) :
    entry kind block run? = (do
      Outcome.require (kind.supports block) (.violation (.noKernel kind block))
      pure (if runsWide processor block then wide else portable)) := by
  rw [entry_eq h hf kind hrun hwide hportable, ite_usesWide_summons]

theorem sadAt_eq (block : BlockSize) :
    table.sadAt block = .ok (if runsWide processor block then Sad.Wide.sad block.width block.height
      else Sad.Portable.sad block.width block.height) :=
  entry_eq_of_handsOver h (fun _ _ => KernelFn.sad.inj) .sad rfl rfl rfl

theorem sadBoundedAt_eq (block : BlockSize) :
    table.sadBoundedAt block = (do
      Outcome.require (KernelKind.sadBounded.supports block) (.violation (.noKernel .sadBounded block))
      pure (if runsWide processor block then Sad.Wide.sadBounded block.width block.height
        else Sad.Portable.sadBounded block.width block.height)) :=
  entry_eq_of_handsOver h (fun _ _ => KernelFn.sadBounded.inj) .sadBounded rfl rfl rfl

theorem sadX4At_eq (block : BlockSize) :
    table.sadX4At block = .ok (sadX4Kernel processor block) :=
  entry_eq h (fun _ _ => KernelFn.sadX4.inj) .sadX4 rfl rfl rfl

theorem sadAvgAt_eq (block : BlockSize) :
    table.sadAvgAt block = (do
      Outcome.require (KernelKind.sadAvg.supports block) (.violation (.noKernel .sadAvg block))
      pure (if runsWide processor block then Sad.Wide.sadAvg block.width block.height
        else Sad.Portable.sadAvg block.width block.height)) :=
  entry_eq_of_handsOver h (fun _ _ => KernelFn.sadAvg.inj) .sadAvg rfl rfl rfl

theorem intraAt_of_supports {kernel : IntraKernel} {block : BlockSize}
    (hblock : (KernelKind.intra kernel).supports block = true) :
    ∃ run, table.intraAt kernel block = .ok run ∧ IsIntraKernel kernel block run := by
  have hkernel := kernelAt_of_supported h (show Slot.supported ⟨.intra kernel, block⟩ = true from hblock)
  obtain ⟨run, hrun, hintra⟩ := kernel_of_mem_defaults (s := s) hblock (choice_mem_defaults processor _)
  rw [hrun] at hkernel
  exact ⟨run, entry_of_map_eq_some (fun _ _ => KernelFn.intra.inj) hkernel, hintra⟩

end Table

end PixelKernels
