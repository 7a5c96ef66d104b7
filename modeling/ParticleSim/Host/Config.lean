import ParticleSim.Text.Number

/-!
# Host — Configuration

How many pipelines a process runs and in which order its services come up.  A configuration can be
taken from a command line: `ServiceConfig.strip` consumes the service flags, as `flag value` or
`flag=value`, and leaves the other arguments.
-/

namespace ParticleSim

/-- A service of a process. -/
inductive ServiceLayer where
  | checkpoint
  | threads
  | comm
deriving DecidableEq

def ServiceLayer.text : ServiceLayer → String
  | checkpoint => "checkpoint"
  | threads => "threads"
  | comm => "comm"

/-- A flag of the command line that belongs to the services. -/
inductive ServiceFlag where
  | threadPipelines
  | serialPipelines
  | dispatchToHost
deriving DecidableEq

namespace ServiceFlag

def text : ServiceFlag → String
  | threadPipelines => "--tpp"
  | serialPipelines => "--serial.n_pipeline"
  | dispatchToHost => "--dispatch_to_host"

/-- The flag with a text. -/
def ofText? (s : String) : Option ServiceFlag :=
  [threadPipelines, serialPipelines, dispatchToHost].find? (·.text = s)

end ServiceFlag

/-- Why a configuration is refused. -/
inductive ConfigError where
  | threadPipelines (configured : UInt64)
  | serialPipelines (configured : UInt64)
  | missingValue (flag : ServiceFlag)
  | invalidValue (flag : ServiceFlag) (value : String)
deriving DecidableEq

def ConfigError.message : ConfigError → String
  | threadPipelines configured => s!"thread_pipelines must be >= 1, got {configured.toNat}"
  | serialPipelines configured => s!"serial_pipelines must be >= 1, got {configured.toNat}"
  | missingValue flag => s!"{flag.text} requires a value"
  | invalidValue flag value => s!"invalid value '{value}' for {flag.text}"

/-- The word for the kind of error. -/
def ConfigError.kind : ConfigError → String
  | threadPipelines _ => "ThreadPipelines"
  | serialPipelines _ => "SerialPipelines"
  | missingValue _ => "MissingValue"
  | invalidValue .. => "InvalidValue"

/-- A configuration of the services. -/
structure ServiceConfig where
  threadPipelines : UInt64 := 1
  serialPipelines : UInt64 := 1
  /-- Whether the host thread does pipeline work too. -/
  dispatchToHost : Bool := true
  /-- Whether the communication comes up before the threads. -/
  commFirst : Bool := false
deriving DecidableEq, Inhabited

namespace ServiceConfig

/-- There is a pipeline of either kind; the threads are looked at first. -/
def validate (c : ServiceConfig) : Except ConfigError Unit :=
  if c.threadPipelines < 1 then .error (.threadPipelines c.threadPipelines)
  else if c.serialPipelines < 1 then .error (.serialPipelines c.serialPipelines)
  else .ok ()

/-- The order in which the services come up. -/
def bootOrder (c : ServiceConfig) : List ServiceLayer :=
  if c.commFirst then [.checkpoint, .comm, .threads] else [.checkpoint, .threads, .comm]

/-- Set what a flag stands for. -/
def setFlag (c : ServiceConfig) (flag : ServiceFlag) (value : String) :
    Except ConfigError ServiceConfig :=
  let checked {α : Type} (parsed : Option α) (update : α → ServiceConfig) :
      Except ConfigError ServiceConfig :=
    match parsed with
    | some a => .ok (update a)
    | none => .error (.invalidValue flag value)
  match flag with
  | .threadPipelines => checked (Text.unsigned? value) fun n => { c with threadPipelines := n }
  | .serialPipelines => checked (Text.unsigned? value) fun n => { c with serialPipelines := n }
  | .dispatchToHost => checked (Text.signed? value) fun i => { c with dispatchToHost := i ≠ 0 }

/-- An argument up to its first equals sign, and what follows that. -/
def splitArgument (arg : String) : String × Option String :=
  let cs := arg.toList
  match cs.dropWhile (· ≠ '=') with
  | [] => (arg, none)
  | _ :: value => (.ofList (cs.takeWhile (· ≠ '=')), some (.ofList value))

/-- Consume the service flags of a command line, from left to right; the last setting of a flag
counts.  What is left are the other arguments. -/
def strip (c : ServiceConfig) : List String → Except ConfigError (ServiceConfig × List String)
  | [] => .ok (c, [])
  | arg :: args =>
    match ServiceFlag.ofText? (splitArgument arg).1, (splitArgument arg).2, args with
    | none, _, args => do
      let (c, kept) ← c.strip args
      return (c, arg :: kept)
    | some flag, some value, args => do (← c.setFlag flag value).strip args
    | some flag, none, value :: args => do (← c.setFlag flag value).strip args
    | some flag, none, [] => .error (.missingValue flag)

/-- Consume the service flags in place: configuration and arguments are replaced together, once the
whole command line has been read. -/
def stripInPlace : EStateM ConfigError (ServiceConfig × List String) Unit := do
  let (c, args) ← get
  match c.strip args with
  | .ok after => set after
  | .error e => throw e

end ServiceConfig

end ParticleSim
