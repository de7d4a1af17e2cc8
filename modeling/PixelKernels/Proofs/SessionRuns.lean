/-
  PixelKernels.Proofs.SessionRuns
  ───────────────────────────────
  **A SESSION ANSWERS AS IF ALL WAS FIXED WHEN IT BEGAN.**

  A session fills its cells at different moments: the two variables at the
  first reading of the environment, the bundle at its first use.  Seen from
  outside there is nothing lazy about it.

    • `Session.known` is what the two cells of the environment say about the
      settings.  A `Coherent` session has read both variables or neither, or
      stopped at a level that is none, and has a bundle only once it knows its
      settings; every step keeps that (`Advances.coherent`).
    • `Session.resolved` and `Session.shared` look ahead: the settings and the
      bundle that a session will have fixed once a run has gone by.  No step
      of the run changes them (`Advances.resolved_eq`, `Advances.shared_eq`).
    • So each answer of a run is the one that `Step.answered` gives with these
      two and the mask of the moment (`getElem?_run`).
-/
import PixelKernels.Proofs.RunnableBundles
import PixelKernels.Session

namespace PixelKernels

/-! ## §1. What a run is given. -/

/-- The level that a text names, or the standard level if there is no text. -/
def levelNamed (text : Option String) : Except Error CpuLevel :=
  (text.map CpuLevel.parse).getD (.ok .standard)

/-- The settings that an environment asks for. -/
def Environment.settings (environment : Environment) : Except Error Settings :=
  (levelNamed environment.levelText?).map fun level =>
    ⟨if environment.forcesScalar then .scalar else level⟩

/-- The level of settings that may have been refused: the standard level if they were. -/
def levelOf : Except Error Settings → CpuLevel
  | .ok settings => settings.cpuLevel
  | .error _ => .standard

namespace Session

/-- Whether a step uses the bundle of the session. -/
def Step.usesBundle : Step → Bool
  | .useKernels | .call _ => true
  | _ => false

/-- Whether a step looks at the settings, on its own account or for the bundle. -/
def Step.readsSettings : Step → Bool
  | .readSettings | .useKernels | .call _ => true
  | _ => false

/-- The mask in force after some steps. -/
def maskAfter (mask : Nat) : List Step → Nat
  | [] => mask
  | .setMask new :: rest => maskAfter new rest
  | _ :: rest => maskAfter mask rest

/-- The environment after some steps. -/
def environmentAfter (environment : Environment) : List Step → Environment
  | [] => environment
  | .setVariable name value :: rest => environmentAfter (environment.set name value) rest
  | _ :: rest => environmentAfter environment rest

/-- The mask in force at the first use of the bundle in a run. -/
def maskAtFirstUse (mask : Nat) (steps : List Step) : Nat :=
  maskAfter mask (steps.takeWhile (!·.usesBundle))

/-- The environment at the first look at the settings in a run. -/
def environmentAtFirstReading (environment : Environment) (steps : List Step) : Environment :=
  environmentAfter environment (steps.takeWhile (!·.readsSettings))

/-- What a step answers where settings and bundle are fixed beforehand and the mask is the one of the
moment. -/
def Step.answered (processor : Processor) (asked : Except Error Settings) (kernels : Kernels)
    (mask : Nat) : Step → Answer
  | .setMask _ | .setVariable _ _ => .done
  | .readFlags => .flags (processor.flags.inter (CpuFlags.truncate mask))
  | .readSettings => .settings asked
  | .useKernels => .kernels (.ok kernels)
  | .call request => .reply (.ok (kernels.answer request))
  | .buildKernels settings => .kernels (Kernels.atLevel processor settings.cpuLevel)

/-! ## §2. What a session knows of its settings. -/

/-- The settings as far as they have been read. -/
def known (session : Session) : Option (Except Error Settings) :=
  session.levelRead.bind fun text =>
    match levelNamed text with
    | .error cause => some (.error cause)
    | .ok level => session.forceRead.map fun forced => .ok ⟨if forced then .scalar else level⟩

/-- The settings as they are known, or as the environment has them now. -/
def asked (session : Session) : Except Error Settings :=
  session.known.getD session.environment.settings

/-- A session whose settings were read in one go, and whose bundle was built after that. -/
structure Coherent (session : Session) : Prop where
  unread : session.known = none → session.levelRead = none ∧ session.forceRead = none
  unbuilt : session.known = none → session.bundle = none

/-- What a look at the settings leaves of a session: all as it was, and the settings known. -/
structure Resolves (session next : Session) : Prop where
  processor : next.processor = session.processor
  mask : next.mask = session.mask
  environment : next.environment = session.environment
  known : next.known = some session.asked

/-- A session that knows its settings is coherent, whatever else is in its cells. -/
theorem coherent_of_known {session : Session} {found : Except Error Settings}
    (h : session.known = some found) : session.Coherent := by
  have hknown : session.known ≠ none := Option.ne_none_iff_exists'.mpr ⟨found, h⟩
  exact ⟨fun hunknown => absurd hunknown hknown, fun hunknown => absurd hunknown hknown⟩

variable {session : Session}

theorem settings_of_level_error {next : Session} {text : Option String} {cause : Error}
    (hread : session.readLevel = (next, text)) (hnamed : levelNamed text = .error cause) :
    session.settings = (next, .error cause) := by
  rw [levelNamed] at hnamed
  simp only [Session.settings, hread, hnamed]

theorem settings_of_level_ok {next last : Session} {text : Option String} {level : CpuLevel}
    {forced : Bool} (hread : session.readLevel = (next, text)) (hnamed : levelNamed text = .ok level)
    (hforce : next.readForce = (last, forced)) :
    session.settings = (last, .ok ⟨if forced then .scalar else level⟩) := by
  rw [levelNamed] at hnamed
  simp only [Session.settings, hread, hnamed, hforce]

/-- Known settings are answered, and nothing is read again. -/
theorem settings_of_known {asked : Except Error Settings} (h : session.known = some asked) :
    session.settings = (session, asked) := by
  obtain ⟨text, hlevelRead, hknown⟩ := Option.bind_eq_some_iff.mp h
  have hread : session.readLevel = (session, text) := by simp only [readLevel, hlevelRead]
  cases hnamed : levelNamed text with
  | error cause =>
    rw [hnamed] at hknown
    cases hknown
    exact settings_of_level_error hread hnamed
  | ok level =>
    rw [hnamed] at hknown
    obtain ⟨forced, hforceRead, rfl⟩ := Option.map_eq_some_iff.mp hknown
    exact settings_of_level_ok hread hnamed (by simp only [readForce, hforceRead])

/-- Settings of which nothing was read are read from the environment of the moment. -/
theorem settings_of_unread (hlevelRead : session.levelRead = none)
    (hforceRead : session.forceRead = none) :
    ∃ next, session.settings = (next, session.asked) ∧ session.Resolves next ∧
      next.bundle = session.bundle := by
  let environment := session.environment
  let reader := { session with levelRead := some environment.levelText? }
  have hread : session.readLevel = (reader, environment.levelText?) := by
    simp only [readLevel, hlevelRead, reader, environment]
  have hasked : session.asked = environment.settings := by rw [asked, known, hlevelRead]; rfl
  rw [Environment.settings] at hasked
  cases hnamed : levelNamed environment.levelText? with
  | error cause =>
    -- a level that is none ends the reading before the second variable
    rw [hnamed] at hasked
    refine ⟨reader, ?_, ⟨rfl, rfl, rfl, ?_⟩, rfl⟩
    · rw [hasked]
      exact settings_of_level_error hread hnamed
    · rw [hasked]
      simp only [known, reader, Option.bind_some, hnamed]
      rfl
  | ok level =>
    rw [hnamed] at hasked
    refine ⟨{ reader with forceRead := some environment.forcesScalar }, ?_, ⟨rfl, rfl, rfl, ?_⟩, rfl⟩
    · rw [hasked]
      exact settings_of_level_ok hread hnamed (by simp only [readForce, reader, hforceRead, environment])
    · rw [hasked]
      simp only [known, reader, Option.bind_some, hnamed, Option.map_some]
      rfl

/-- **The settings that a session answers are known from then on.** -/
theorem settings_spec (h : session.Coherent) :
    ∃ next, session.settings = (next, session.asked) ∧ session.Resolves next ∧
      next.bundle = session.bundle := by
  cases hknown : session.known with
  | some found =>
    have hasked : session.asked = found := by rw [asked, hknown]; rfl
    rw [hasked]
    exact ⟨session, settings_of_known hknown, ⟨rfl, rfl, rfl, by rw [hknown, hasked]⟩, rfl⟩
  | none =>
    obtain ⟨hlevelRead, hforceRead⟩ := h.unread hknown
    exact settings_of_unread hlevelRead hforceRead

/-! ## §3. What a session will have fixed. -/

/-- The capabilities for which the bundle of a session is built. -/
def sharedFlags (detected : CpuFlags) (mask : Nat) (level : CpuLevel) : CpuFlags :=
  (detected.inter (CpuFlags.truncate mask)).inter (CpuFlags.truncate level.mask)

/-- The processor for which the bundle of a session is built. -/
def sharedProcessor (processor : Processor) (mask : Nat) (level : CpuLevel) : Processor :=
  { processor with flags := sharedFlags processor.flags mask level }

/-- The settings that a session knows once a run has gone by, if it has looked at them. -/
def resolved (session : Session) (steps : List Step) : Except Error Settings :=
  session.known.getD (environmentAtFirstReading session.environment steps).settings

/-- The bundle that a session has once a run has gone by, if it has used it. -/
def shared (session : Session) (steps : List Step) : Outcome Kernels :=
  match session.bundle with
  | some kernels => .ok kernels
  | none =>
      let level := levelOf (session.resolved steps)
      Kernels.forProcessor level
        (sharedProcessor session.processor (maskAtFirstUse session.mask steps) level)

theorem exists_shared (session : Session) (steps : List Step) :
    ∃ kernels, session.shared steps = .ok kernels := by
  unfold shared
  cases session.bundle with
  | some kernels => exact ⟨kernels, rfl⟩
  | none =>
    obtain ⟨kernels, hkernels, -⟩ := Kernels.forProcessor_selects (levelOf (session.resolved steps))
      (sharedProcessor session.processor (maskAtFirstUse session.mask steps)
        (levelOf (session.resolved steps)))
    exact ⟨kernels, hkernels⟩

/-- **The bundle that a session answers stays, and so do the settings that it was built for.** -/
theorem kernels_spec (h : session.Coherent) {kernels : Kernels}
    (hshared : session.shared [] = .ok kernels) :
    ∃ next, session.kernels = (next, .ok kernels) ∧ session.Resolves next ∧
      next.bundle = some kernels := by
  cases hbundle : session.bundle with
  | some built =>
    have hsame : built = kernels := by
      rw [shared, hbundle] at hshared
      exact Except.ok.inj hshared
    subst hsame
    -- a session with a bundle knows its settings
    obtain ⟨found, hknown⟩ : ∃ found, session.known = some found := by
      refine Option.ne_none_iff_exists'.mp fun hunknown => ?_
      rw [h.unbuilt hunknown] at hbundle
      cases hbundle
    refine ⟨session, by simp only [Session.kernels, hbundle], ⟨rfl, rfl, rfl, ?_⟩, hbundle⟩
    rw [asked, hknown]
    rfl
  | none =>
    obtain ⟨next, hsettings, hresolves, -⟩ := settings_spec h
    have hbuilt : Kernels.forProcessor (levelOf session.asked)
        (sharedProcessor session.processor session.mask (levelOf session.asked)) = .ok kernels := by
      rw [shared, hbundle] at hshared
      exact hshared
    have hflags : next.cpuFlags = session.processor.flags.inter (CpuFlags.truncate session.mask) := by
      rw [cpuFlags, hresolves.processor, hresolves.mask]
    refine ⟨{ next with bundle := some kernels }, ?_,
      ⟨hresolves.processor, hresolves.mask, hresolves.environment, hresolves.known⟩, rfl⟩
    simp only [Session.kernels, hbundle, hsettings, hflags, hresolves.processor]
    cases hasked : session.asked with
    | error cause | ok settings =>
      rw [hasked] at hbuilt
      simp only [levelOf, sharedProcessor, sharedFlags] at hbuilt
      simp only [hbuilt]

/-! ## §4. Steps. -/

theorem Step.readsSettings_of_usesBundle {step : Step} (h : step.usesBundle = true) :
    step.readsSettings = true := by
  cases step with
  | useKernels | call request => rfl
  | setMask mask | setVariable name value | readFlags | readSettings | buildKernels settings => cases h

theorem Step.usesBundle_eq_false {step : Step} (h : step.readsSettings = false) :
    step.usesBundle = false := by
  cases huses : step.usesBundle with
  | false => rfl
  | true =>
    rw [Step.readsSettings_of_usesBundle huses] at h
    cases h

theorem maskAfter_cons (mask : Nat) (step : Step) (rest : List Step) :
    maskAfter mask (step :: rest) = maskAfter (maskAfter mask [step]) rest := by
  cases step <;> rfl

theorem environmentAfter_cons (environment : Environment) (step : Step) (rest : List Step) :
    environmentAfter environment (step :: rest)
      = environmentAfter (environmentAfter environment [step]) rest := by
  cases step <;> rfl

section First

variable {step : Step}

theorem maskAtFirstUse_cons_of_uses (h : step.usesBundle = true) (mask : Nat) (rest : List Step) :
    maskAtFirstUse mask (step :: rest) = mask := by
  rw [maskAtFirstUse, List.takeWhile_cons_of_neg (by simp [h])]
  rfl

theorem maskAtFirstUse_cons (h : step.usesBundle = false) (mask : Nat) (rest : List Step) :
    maskAtFirstUse mask (step :: rest) = maskAtFirstUse (maskAfter mask [step]) rest := by
  rw [maskAtFirstUse, List.takeWhile_cons_of_pos (by simp [h]), maskAfter_cons]
  rfl

theorem environmentAtFirstReading_cons_of_reads (h : step.readsSettings = true)
    (environment : Environment) (rest : List Step) :
    environmentAtFirstReading environment (step :: rest) = environment := by
  rw [environmentAtFirstReading, List.takeWhile_cons_of_neg (by simp [h])]
  rfl

theorem environmentAtFirstReading_cons (h : step.readsSettings = false) (environment : Environment)
    (rest : List Step) : environmentAtFirstReading environment (step :: rest)
      = environmentAtFirstReading (environmentAfter environment [step]) rest := by
  rw [environmentAtFirstReading, List.takeWhile_cons_of_pos (by simp [h]), environmentAfter_cons]
  rfl

end First

/-- All that a step can do to a session. -/
structure Advances (session : Session) (step : Step) (next : Session) : Prop where
  processor : next.processor = session.processor
  mask : next.mask = maskAfter session.mask [step]
  environment : next.environment = environmentAfter session.environment [step]
  read : step.readsSettings = true → next.known = some session.asked
  unread : step.readsSettings = false →
    next.levelRead = session.levelRead ∧ next.forceRead = session.forceRead
  built : step.usesBundle = true → next.bundle = (session.shared []).toOption
  unbuilt : step.usesBundle = false → next.bundle = session.bundle

/-- **A step answers with the settings and the bundle that the session will have fixed.** -/
theorem step_spec (h : session.Coherent) (step : Step) (rest : List Step) {kernels : Kernels}
    (hshared : session.shared (step :: rest) = .ok kernels) :
    ∃ next, session.step step = (next, step.answered session.processor
        (session.resolved (step :: rest)) kernels session.mask) ∧ session.Advances step next := by
  cases step with
  | setMask _ | setVariable _ _ | readFlags | buildKernels _ =>
    exact ⟨_, rfl, rfl, rfl, rfl, nofun, fun _ => ⟨rfl, rfl⟩, nofun, fun _ => rfl⟩
  | readSettings =>
    obtain ⟨next, hsettings, hresolves, hbundle⟩ := settings_spec h
    refine ⟨next, ?_, hresolves.processor, hresolves.mask, hresolves.environment,
      fun _ => hresolves.known, nofun, nofun, fun _ => hbundle⟩
    simp only [Session.step, hsettings]
    rfl
  | useKernels | call _ =>
    -- the first use of a run that starts with one is made now
    have hnow : session.shared [] = .ok kernels := hshared
    obtain ⟨next, hkernels, hresolves, hbundle⟩ := kernels_spec h hnow
    refine ⟨next, ?_, hresolves.processor, hresolves.mask, hresolves.environment,
      fun _ => hresolves.known, nofun, fun _ => ?_, nofun⟩
    · simp only [Session.step, Session.call, hkernels]
      rfl
    · rw [hbundle, hnow]
      rfl

namespace Advances

variable {next : Session} {step : Step}

theorem known_eq (h : session.Advances step next) (hreads : step.readsSettings = false) :
    next.known = session.known := by
  obtain ⟨hlevelRead, hforceRead⟩ := h.unread hreads
  rw [known, known, hlevelRead, hforceRead]

/-- **A step keeps a session coherent.** -/
theorem coherent (h : session.Advances step next) (hsession : session.Coherent) : next.Coherent := by
  cases hreads : step.readsSettings with
  | true => exact coherent_of_known (h.read hreads)
  | false =>
    -- such a step leaves the cells of the environment, and does not use the bundle
    obtain ⟨hlevelRead, hforceRead⟩ := h.unread hreads
    refine ⟨fun hunknown => ?_, fun hunknown => ?_⟩
    · rw [hlevelRead, hforceRead]
      exact hsession.unread (h.known_eq hreads ▸ hunknown)
    · rw [h.unbuilt (Step.usesBundle_eq_false hreads)]
      exact hsession.unbuilt (h.known_eq hreads ▸ hunknown)

/-- **A step leaves the settings that the run resolves.** -/
theorem resolved_eq (h : session.Advances step next) (rest : List Step) :
    next.resolved rest = session.resolved (step :: rest) := by
  cases hreads : step.readsSettings with
  | true =>
    rw [resolved, h.read hreads, resolved, environmentAtFirstReading_cons_of_reads hreads]
    rfl
  | false =>
    rw [resolved, h.known_eq hreads, h.environment, resolved, environmentAtFirstReading_cons hreads]

/-- **A step leaves the bundle that the run shares.** -/
theorem shared_eq (h : session.Advances step next) (rest : List Step) :
    next.shared rest = session.shared (step :: rest) := by
  cases huses : step.usesBundle with
  | true =>
    -- nothing stands before the first use, nor before the first look at the settings
    have hnow : session.shared (step :: rest) = session.shared [] := by
      rw [shared, resolved, maskAtFirstUse_cons_of_uses huses,
        environmentAtFirstReading_cons_of_reads (Step.readsSettings_of_usesBundle huses)]
      rfl
    obtain ⟨kernels, hkernels⟩ := exists_shared session []
    rw [hnow, hkernels, shared, h.built huses, hkernels]
    rfl
  | false =>
    rw [shared, h.unbuilt huses, h.processor, h.mask, h.resolved_eq, ← maskAtFirstUse_cons huses]
    rfl

end Advances

/-! ## §5. Runs. -/

/-- **Every answer of a run is given with the settings and the bundle that the run fixes, and with the
mask of the moment.** -/
theorem getElem?_run {steps : List Step} {kernels : Kernels} (h : session.Coherent)
    (hshared : session.shared steps = .ok kernels) (i : Nat) :
    (session.run steps)[i]? = steps[i]?.map (Step.answered session.processor
      (session.resolved steps) kernels (maskAfter session.mask (steps.take i))) := by
  -- induction on the steps, from whatever session they start
  induction steps generalizing session i with
  | nil => rfl
  | cons step rest ih =>
    obtain ⟨next, hstep, hnext⟩ := step_spec h step rest hshared
    have hrun : session.run (step :: rest) = step.answered session.processor
        (session.resolved (step :: rest)) kernels session.mask :: next.run rest := by
      simp only [run, hstep]
    rw [hrun]
    cases i with
    | zero => rfl
    | succ i =>
      rw [List.getElem?_cons_succ, List.getElem?_cons_succ, List.take_succ_cons, maskAfter_cons,
        ih (hnext.coherent h) ((hnext.shared_eq rest).trans hshared) i, hnext.processor,
        hnext.resolved_eq, hnext.mask]

end Session

/-! ## §6. Whole sessions. -/

namespace Session

/-- A session that has done nothing yet. -/
def start (processor : Processor) (environment : Environment) : Session :=
  { processor := processor, environment := environment }

theorem coherent_start (processor : Processor) (environment : Environment) :
    (start processor environment).Coherent := ⟨fun _ => ⟨rfl, rfl⟩, fun _ => rfl⟩

/-- No mask lets through what the processor does not report. -/
theorem contains_sharedFlags (detected : CpuFlags) (mask : Nat) (level : CpuLevel) :
    detected.contains (sharedFlags detected mask level) = true :=
  CpuFlags.contains_trans (CpuFlags.contains_inter_left ..) (CpuFlags.contains_inter_left ..)

/-- A run of a session in which `kernels` is the bundle, whenever it is used. -/
structure FixesOnce (processor : Processor) (environment : Environment) (steps : List Step)
    (kernels : Kernels) : Prop where
  /-- All looks at the settings answer what the environment asked for at the first of them, all uses of
  the bundle are uses of this one, and a bundle of one's own depends on its settings alone. -/
  answers : ∀ i : Nat, ((start processor environment).run steps)[i]?
    = steps[i]?.map (Step.answered processor (environmentAtFirstReading environment steps).settings
        kernels (maskAfter uint32Max (steps.take i)))
  level : kernels.level = levelOf (environmentAtFirstReading environment steps).settings
  /-- Of the masks of a run, the one at the first use is the one that counts. -/
  built : Kernels.forProcessor kernels.level
    (sharedProcessor processor (maskAtFirstUse uint32Max steps) kernels.level) = .ok kernels

theorem exists_fixesOnce (processor : Processor) (environment : Environment) (steps : List Step) :
    ∃ kernels, FixesOnce processor environment steps kernels := by
  obtain ⟨kernels, hshared⟩ := exists_shared (start processor environment) steps
  have hbuilt : Kernels.forProcessor (levelOf (environmentAtFirstReading environment steps).settings)
      (sharedProcessor processor (maskAtFirstUse uint32Max steps)
        (levelOf (environmentAtFirstReading environment steps).settings)) = .ok kernels := hshared
  obtain ⟨hlevel, -⟩ := Kernels.runsOn_of_forProcessor hbuilt
  refine ⟨kernels, fun i => getElem?_run (coherent_start processor environment) hshared i, hlevel, ?_⟩
  rw [hlevel]
  exact hbuilt

/-- **A session has one bundle and one answer about its settings, whatever it does and in whatever
order, and no bundle needs what the processor does not report.** -/
theorem sessions_fix_their_bundle (processor : Processor) (environment : Environment)
    (steps : List Step) :
    (∃ kernels, FixesOnce processor environment steps kernels ∧
      kernels.BuiltFor (sharedFlags processor.flags (maskAtFirstUse uint32Max steps) kernels.level) ∧
        kernels.RunsOn processor.flags) ∧
      ∀ level, ∃ own, Kernels.atLevel processor level = .ok own ∧ own.level = level ∧
        own.BuiltFor (level.flags processor.flags) ∧ own.RunsOn processor.flags := by
  constructor
  · obtain ⟨kernels, hfixes⟩ := exists_fixesOnce processor environment steps
    obtain ⟨-, hruns⟩ := Kernels.runsOn_of_forProcessor hfixes.built
    exact ⟨kernels, hfixes, Kernels.builtFor_of_forProcessor hfixes.built,
      hruns.mono (contains_sharedFlags ..)⟩
  · intro level
    obtain ⟨own, hown, -⟩ := Kernels.atLevel_selects processor level
    obtain ⟨hlevel, hruns⟩ := Kernels.runsOn_of_forProcessor hown
    exact ⟨own, hown, hlevel, Kernels.builtFor_of_forProcessor hown,
      hruns.mono (CpuLevel.contains_flags level processor.flags)⟩

end Session

end PixelKernels
