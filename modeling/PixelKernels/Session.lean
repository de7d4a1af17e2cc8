/-
  PixelKernels.Session
  ────────────────────
  **SETTINGS OF A RUNNING PROGRAM, FIXED AT FIRST USE.**

  A session, the life of one program, has an environment, a mask over the
  reported capabilities and one bundle of kernels.  Each variable is read at
  most once, when it is first needed, and the bundle is built at its first
  use: from then on a changed environment or mask no longer reaches it.  A
  call that does not name a bundle is answered by this one.

  `VPXDSP_CPU_LEVEL` names a level, and a name that is none is an error.
  Only after that is `VPXDSP_FORCE_SCALAR` looked at, which overrides any
  level.  The bundle does not fail on a bad name; it takes the standard
  level instead.
-/
import PixelKernels.Kernels

namespace PixelKernels

/-! ## §1. The environment. -/

/-- What the environment holds for a variable. -/
inductive Variable where
  /-- Nothing. -/
  | unset
  /-- Bytes that are not the encoding of a text. -/
  | undecodable
  /-- A text. -/
  | text (value : String)
  deriving Repr, DecidableEq, Inhabited

/-- The variable that holds these bytes. -/
def Variable.ofBytes (bytes : ByteArray) : Variable :=
  match String.fromUTF8? bytes with
  | some value => .text value
  | none => .undecodable

/-- The text of a variable, if it has one. -/
def Variable.text? : Variable → Option String
  | .text value => some value
  | _ => none

/-- The two variables that select kernels. -/
structure Environment where
  cpuLevel : Variable := .unset
  forceScalar : Variable := .unset
  deriving Repr, DecidableEq, Inhabited

namespace Environment

/-- Name of the variable for the level. -/
def cpuLevelName : String := "VPXDSP_CPU_LEVEL"

/-- Name of the variable that forces portable kernels. -/
def forceScalarName : String := "VPXDSP_FORCE_SCALAR"

/-- The environment with one variable changed; other names are of no interest. -/
def set (environment : Environment) (name : String) (value : Variable) : Environment :=
  if name = cpuLevelName then { environment with cpuLevel := value }
  else if name = forceScalarName then { environment with forceScalar := value }
  else environment

/-- Whether a text switches something on. -/
def isTruthy (text : String) : Bool :=
  ["1", "true", "yes", "on"].contains (Text.foldCase (Text.trim text))

/-- The text of the level without surrounding white space, if anything is left. -/
def levelText? (environment : Environment) : Option String :=
  (environment.cpuLevel.text?.map Text.trim).filter (!·.isEmpty)

/-- Whether portable kernels are forced. -/
def forcesScalar (environment : Environment) : Bool :=
  (environment.forceScalar.text?.map isTruthy).getD false

end Environment

/-! ## §2. Settings. -/

/-- What can be set. -/
structure Settings where
  cpuLevel : CpuLevel := .standard
  deriving Repr, DecidableEq, Inhabited

/-! ## §3. Calls. -/

/-- An entry point with its arguments. -/
inductive Request where
  | sad {s : Storage} (depth : Depth) (block : BlockSize) (source reference : Plane s)
  | sadBounded {s : Storage} (depth : Depth) (block : BlockSize) (source reference : Plane s)
      (bound : Nat)
  | sadX4 {s : Storage} (depth : Depth) (block : BlockSize) (source : Plane s)
      (references : Vector (Plane s) 4)
  | sadAvg {s : Storage} (depth : Depth) (block : BlockSize) (source reference : Plane s)
      (second : Array (Sample s))
  | predictIntra {s : Storage} (depth : Depth) (block : BlockSize) (mode : IntraMode)
      (destination : Plane s) (edge : IntraEdge s)

/-- What an entry point answers. -/
inductive Reply where
  | cost (cost : Outcome Nat)
  | costs (costs : Outcome (Vector Nat 4))
  | painting {s : Storage} (painting : Painting s)

/-- The answer of a bundle to a call. -/
def Kernels.answer (kernels : Kernels) : Request → Reply
  | .sad depth block source reference => .cost (kernels.sad depth block source reference)
  | .sadBounded depth block source reference bound =>
      .cost (kernels.sadBounded depth block source reference bound)
  | .sadX4 depth block source references => .costs (kernels.sadX4 depth block source references)
  | .sadAvg depth block source reference second =>
      .cost (kernels.sadAvg depth block source reference second)
  | .predictIntra depth block mode destination edge =>
      .painting (kernels.predictIntra depth block mode destination edge)

/-! ## §4. Sessions. -/

/-- A session: what it was given, and what it has already fixed. -/
structure Session where
  /-- The processor that it runs on. -/
  processor : Processor
  environment : Environment
  /-- The mask in force, 32 bits wide. -/
  mask : Nat := uint32Max
  /-- The level's text, once it has been read. -/
  levelRead : Option (Option String) := none
  /-- Whether portable kernels are forced, once that has been read. -/
  forceRead : Option Bool := none
  /-- The bundle, once it has been built. -/
  bundle : Option Kernels := none

namespace Session

/-- What the processor reports, as far as the mask lets it through. -/
def cpuFlags (session : Session) : CpuFlags :=
  session.processor.flags.inter (CpuFlags.truncate session.mask)

/-- Changes the mask. -/
def setMask (session : Session) (mask : Nat) : Session := { session with mask := mask }

/-- Changes a variable of the environment. -/
def setVariable (session : Session) (name : String) (value : Variable) : Session :=
  { session with environment := session.environment.set name value }

/-- The level's text, read now if it never was. -/
def readLevel (session : Session) : Session × Option String :=
  match session.levelRead with
  | some text => (session, text)
  | none =>
      let text := session.environment.levelText?
      ({ session with levelRead := some text }, text)

/-- Whether portable kernels are forced, read now if it never was. -/
def readForce (session : Session) : Session × Bool :=
  match session.forceRead with
  | some forced => (session, forced)
  | none =>
      let forced := session.environment.forcesScalar
      ({ session with forceRead := some forced }, forced)

/-- The settings that the environment asks for. -/
def settings (session : Session) : Session × Except Error Settings :=
  let (session, text) := session.readLevel
  -- whether portable kernels are forced is read only once the level is understood
  match (text.map CpuLevel.parse).getD (.ok .standard) with
  | .error cause => (session, .error cause)
  | .ok level =>
      let (session, forced) := session.readForce
      (session, .ok ⟨if forced then .scalar else level⟩)

/-- The bundle of the session, built now if it never was. -/
def kernels (session : Session) : Session × Outcome Kernels :=
  match session.bundle with
  | some kernels => (session, .ok kernels)
  | none =>
      let (session, asked) := session.settings
      -- settings that are refused count as the standard level
      let level := match asked with
        | .ok settings => settings.cpuLevel
        | .error _ => .standard
      let flags := session.cpuFlags.inter (CpuFlags.truncate level.mask)
      match Kernels.forProcessor level { session.processor with flags := flags } with
      | .ok kernels => ({ session with bundle := some kernels }, .ok kernels)
      | .error (.error cause) => (session, .error (.violation (.incompleteDefaults cause)))
      | .error fault => (session, .error fault)

/-- A bundle with settings of its own. -/
def kernelsFor (session : Session) (settings : Settings) : Outcome Kernels :=
  Kernels.atLevel session.processor settings.cpuLevel

/-- Calls an entry point of the bundle of the session. -/
def call (session : Session) (request : Request) : Session × Outcome Reply :=
  let (session, kernels) := session.kernels
  (session, do pure ((← kernels).answer request))

/-! ## §5. Runs. -/

/-- One thing that a program does. -/
inductive Step where
  | setMask (mask : Nat)
  | setVariable (name : String) (value : Variable)
  | readFlags
  | readSettings
  | useKernels
  /-- An entry point is called on the bundle of the session, without asking for the bundle. -/
  | call (request : Request)
  | buildKernels (settings : Settings)

/-- What a step answers. -/
inductive Answer where
  | done
  | flags (flags : CpuFlags)
  | settings (settings : Except Error Settings)
  | kernels (kernels : Outcome Kernels)
  | reply (reply : Outcome Reply)

/-- The session after a step, and the answer. -/
def step (session : Session) : Step → Session × Answer
  | .setMask mask => (session.setMask mask, .done)
  | .setVariable name value => (session.setVariable name value, .done)
  | .readFlags => (session, .flags session.cpuFlags)
  | .readSettings =>
      let (session, asked) := session.settings
      (session, .settings asked)
  | .useKernels =>
      let (session, kernels) := session.kernels
      (session, .kernels kernels)
  | .call request =>
      let (session, reply) := session.call request
      (session, .reply reply)
  | .buildKernels settings => (session, .kernels (session.kernelsFor settings))

/-- The answers of a run, in order. -/
def run (session : Session) : List Step → List Answer
  | [] => []
  | step :: rest =>
      let (session, answer) := session.step step
      answer :: run session rest

end Session

end PixelKernels
