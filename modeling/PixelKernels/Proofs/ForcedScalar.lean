/-
  PixelKernels.Proofs.ForcedScalar
  ────────────────────────────────
  **WHEN FORCING PORTABLE KERNELS IS HEEDED.**

  The variable that forces portable kernels is read after the one that names
  a level, and only if that one is understood.  It is understood if there is
  no text in it beyond white space, or if the text is a spelling of a level.
  Then the bundle of the session is scalar, whatever level is named and
  whatever the mask.  A text that is no level ends the reading first: the
  settings are refused, and the bundle takes the standard level as if
  nothing had been forced.
-/
import PixelKernels.Proofs.SessionRuns

namespace PixelKernels

namespace CpuFlags

/-- What may run where nothing is there needs nothing. -/
theorem eq_none_of_none_contains {needed : CpuFlags} (h : none.contains needed = true) :
    needed = none := by
  obtain ⟨bits⟩ := needed
  have hbits : (0 : BitVec 5) &&& bits = bits := beq_iff_eq.mp h
  rw [none, ← hbits]
  exact congrArg CpuFlags.mk BitVec.zero_and

theorem inter_none (flags : CpuFlags) : flags.inter none = none := by
  simp [inter, none]

/-- A mask of all ones lets everything through. -/
theorem inter_all (flags : CpuFlags) : flags.inter all = flags := by
  obtain ⟨bits⟩ := flags
  have hones : (31 : BitVec 5) = BitVec.allOnes 5 := by decide
  rw [inter, all, hones, BitVec.and_allOnes]

end CpuFlags

/-- No implementation that a bundle selects needs a capability. -/
def Kernels.IsPortable (kernels : Kernels) : Prop :=
  ∀ (s : Storage) (depth : Depth) (table : Table s), kernels.table s depth = .ok table →
    ∀ slot chosen, table.selected slot = some chosen → chosen.requires = .none

theorem Kernels.RunsOn.isPortable {kernels : Kernels} (h : kernels.RunsOn .none) :
    kernels.IsPortable := fun _ _ _ htable slot chosen hchosen =>
  CpuFlags.eq_none_of_none_contains (h.selected htable slot chosen hchosen)

/-! ## §1. Environments that force portable kernels. -/

namespace Environment

variable {environment : Environment}

theorem levelNamed_some (text : String) : levelNamed (some text) = CpuLevel.parse text := by
  rw [levelNamed, Option.map_some, Option.getD_some]

/-- Whether the variable for the level is blank, or is none that can be read, or names a level. -/
def Understood (environment : Environment) : Prop :=
  ∀ text, environment.levelText? = some text → ∃ level, CpuLevel.parse text = .ok level

theorem levelOf_settings_of_understood (h : environment.Understood)
    (hforce : environment.forcesScalar = true) : levelOf environment.settings = .scalar := by
  obtain ⟨level, hnamed⟩ : ∃ level, levelNamed environment.levelText? = .ok level := by
    cases htext : environment.levelText? with
    | none => exact ⟨.standard, rfl⟩
    | some text =>
      rw [levelNamed_some]
      exact h text htext
  rw [settings, hnamed, hforce]
  rfl

/-- A level that is not understood hides that portable kernels are forced. -/
theorem levelOf_settings_of_not_understood (h : ¬ environment.Understood) :
    levelOf environment.settings = .standard := by
  obtain ⟨text, hrest⟩ := not_forall.mp h
  obtain ⟨htext, hunknown⟩ := not_forall.mp hrest
  have hnamed : levelNamed environment.levelText? = CpuLevel.parse text := by
    rw [htext, levelNamed_some]
  cases hparse : CpuLevel.parse text with
  | ok level => exact absurd ⟨level, hparse⟩ hunknown
  | error cause =>
    rw [settings, hnamed, hparse]
    rfl

end Environment

/-! ## §2. Sessions that force portable kernels. -/

namespace Session

theorem sharedFlags_scalar (detected : CpuFlags) (mask : Nat) :
    sharedFlags detected mask .scalar = .none :=
  CpuFlags.inter_none _

theorem sharedFlags_standard (detected : CpuFlags) (mask : Nat) :
    sharedFlags detected mask .standard = detected.inter (CpuFlags.truncate mask) :=
  CpuFlags.inter_all _

/-- **Forcing portable kernels works exactly if the level is understood.**  If it is not, the bundle is
of the standard level and has all that the processor reports and the mask lets through. -/
theorem forced_sessions_scalar_iff (processor : Processor) (environment : Environment)
    (steps : List Step)
    (hforce : (environmentAtFirstReading environment steps).forcesScalar = true) :
    ∃ kernels : Kernels,
      (∀ i : Nat, steps[i]? = some .useKernels →
        ((start processor environment).run steps)[i]? = some (.kernels (.ok kernels))) ∧
      (kernels.level = .scalar ↔ (environmentAtFirstReading environment steps).Understood) ∧
      ((environmentAtFirstReading environment steps).Understood → kernels.IsPortable) ∧
      (¬ (environmentAtFirstReading environment steps).Understood → kernels.level = .standard ∧
        kernels.BuiltFor
          (processor.flags.inter (CpuFlags.truncate (maskAtFirstUse uint32Max steps)))) := by
  obtain ⟨kernels, hfixes⟩ := exists_fixesOnce processor environment steps
  have hunderstood (h : (environmentAtFirstReading environment steps).Understood) :
      kernels.level = .scalar :=
    hfixes.level.trans (Environment.levelOf_settings_of_understood h hforce)
  have hignored (h : ¬ (environmentAtFirstReading environment steps).Understood) :
      kernels.level = .standard :=
    hfixes.level.trans (Environment.levelOf_settings_of_not_understood h)
  refine ⟨kernels, fun i hi => ?_, ⟨fun hscalar => ?_, hunderstood⟩, fun h => ?_, fun h => ⟨hignored h, ?_⟩⟩
  · rw [hfixes.answers, hi]
    rfl
  · by_contra h
    rw [hignored h] at hscalar
    cases hscalar
  · have hbuilt := hfixes.built
    rw [hunderstood h, sharedProcessor, sharedFlags_scalar] at hbuilt
    exact (Kernels.runsOn_of_forProcessor hbuilt).2.isPortable
  · have hbuilt := hfixes.built
    rw [hignored h, sharedProcessor, sharedFlags_standard] at hbuilt
    exact Kernels.builtFor_of_forProcessor hbuilt

/-- The third level by name, and portable kernels forced. -/
def forcedAtV3 : Environment := { cpuLevel := .text " V3 ", forceScalar := .text "on" }

/-- The mask is set before the first use, and the bundle is asked for twice. -/
theorem forced_session_at_v3 :
    forcedAtV3.forcesScalar = true ∧ forcedAtV3.Understood ∧
    ∃ kernels : Kernels, kernels.level = .scalar ∧ kernels.IsPortable ∧
      ((start .full forcedAtV3).run [.setMask 15, .useKernels, .useKernels])[2]?
        = some (.kernels (.ok kernels)) := by
  have hforce : forcedAtV3.forcesScalar = true := by decide +kernel
  have hunderstood : forcedAtV3.Understood := by
    intro text htext
    have hv3 : forcedAtV3.levelText? = some "V3" := by decide +kernel
    rw [hv3] at htext
    cases htext
    exact ⟨.v3, by decide +kernel⟩
  obtain ⟨kernels, hused, hscalar, hportable, -⟩ :=
    forced_sessions_scalar_iff .full forcedAtV3 [.setMask 15, .useKernels, .useKernels] hforce
  exact ⟨hforce, hunderstood, kernels, hscalar.mpr hunderstood, hportable hunderstood, hused 2 rfl⟩

/-- A word that is no level, and portable kernels forced. -/
def forcedAtTurbo : Environment := { cpuLevel := .text "turbo", forceScalar := .text "1" }

/-- **Portable kernels can be forced in vain.**  At a level that is none, the bundle of a processor with
256-bit integers runs kernels that need them. -/
theorem forced_scalar_is_ignored :
    forcedAtTurbo.forcesScalar = true ∧
    ∃ kernels : Kernels,
      (start ⟨CpuFlags.truncate 15, true⟩ forcedAtTurbo).run [.useKernels] = [.kernels (.ok kernels)] ∧
      kernels.level = .native ∧
      ∃ chosen, kernels.eight.selected ⟨.sad, .b16x16⟩ = some chosen ∧ chosen.requires = .avx2 := by
  have hignored : ¬ forcedAtTurbo.Understood := by
    intro h
    obtain ⟨level, hlevel⟩ := h "turbo" (by decide +kernel)
    have hrefused : CpuLevel.parse "turbo" = .error (.invalidCpuLevel "turbo") := by decide +kernel
    rw [hrefused] at hlevel
    cases hlevel
  obtain ⟨kernels, hfixes⟩ :=
    exists_fixesOnce ⟨CpuFlags.truncate 15, true⟩ forcedAtTurbo [.useKernels]
  have hlevel : kernels.level = .native :=
    hfixes.level.trans (Environment.levelOf_settings_of_not_understood hignored)
  have hbuilt := hfixes.built
  rw [hlevel] at hbuilt
  obtain ⟨-, hselects⟩ := Kernels.selects_of_forProcessor hbuilt
  obtain ⟨table, htable, -, hholds⟩ := hselects (show Depth.eight.storage = .byte from rfl)
  cases htable
  refine ⟨by decide +kernel, kernels, List.ext_getElem? fun i => ?_, hlevel, _, hholds.selected_eq _, ?_⟩
  · rw [hfixes.answers]
    cases i <;> rfl
  · rfl

end Session

end PixelKernels
