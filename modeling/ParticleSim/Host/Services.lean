import ParticleSim.Checkpoint.Stream
import ParticleSim.Host.Config
import ParticleSim.Rank.Barrier

/-!
# Host — Services

The services of one rank: a configuration, a connection to the other ranks and the phase, which says
whether a checkpoint or a restore is going on.  The ranks boot together: a configuration that one of
them refuses fails the boot on all of them (`Services.boot`).
-/

namespace ParticleSim

/-- Why services did not come up. -/
inductive BootError where
  | config (error : ConfigError)
  | comm (error : CommError)
  /-- Another rank did not boot. -/
  | peerFailed
deriving DecidableEq

def BootError.message : BootError → String
  | config error => "config: " ++ error.message
  | comm error => "comm: " ++ error.message
  | peerFailed => "a peer rank failed to boot"

/-- The word for the kind of error. -/
def BootError.kind : BootError → String
  | config _ => "Config"
  | comm _ => "Comm"
  | peerFailed => "PeerFailed"

/-- The message of the error behind a failed boot. -/
def BootError.source? : BootError → Option String
  | config error => some error.message
  | comm error => some error.message
  | peerFailed => none

/-- The services of a rank. -/
structure Services where
  config : ServiceConfig
  comm : Communicator
  phase : Phase
  /-- How many barriers are behind. -/
  round : Nat

namespace Services

/-- Come up, and meet the other ranks at a barrier. -/
def bootProgram (config : ServiceConfig) (comm : Communicator) :
    RankProgram (Except BootError Services) := do
  let valid := config.validate
  match ← RankProgram.vote valid.isOk, valid with
  | .error e, _ => return .error (.comm e)
  | .ok _, .error e => return .error (.config e)
  | .ok false, .ok () => return .error .peerFailed
  | .ok true, .ok () => return .ok ⟨config, comm, .idle, 1⟩

/-- Come up over a connection that answers by itself. -/
def boot (config : ServiceConfig) (comm : Communicator) : Except BootError Services :=
  (bootProgram config comm).run comm.answer 0

/-- The order in which the services came up. -/
def order (s : Services) : List ServiceLayer := s.config.bootOrder

/-- Whether a checkpoint is going on. -/
def inCheckpoint (s : Services) : Bool := s.phase = .checkpoint

/-- Whether a restore is going on. -/
def inRestore (s : Services) : Bool := s.phase = .restore

/-- Who writes the streams of these services. -/
def origin (s : Services) : Origin := ⟨"plasma-engine 0.1.9", s.comm.rank, s.comm.world⟩

/-! ### The services in a log -/

/-- Names and texts of fields, in braces after the name of their structure. -/
def fieldsText (name : String) (fields : List (String × String)) : String :=
  name ++ " \x7b " ++ ", ".intercalate (fields.map fun f => f.1 ++ ": " ++ f.2) ++ " \x7d"

def boolText (b : Bool) : String := if b then "true" else "false"

def configText (c : ServiceConfig) : String :=
  fieldsText "ServicesConfig"
    [("thread_pipelines", c.threadPipelines.toNat.repr),
      ("serial_pipelines", c.serialPipelines.toNat.repr),
      ("dispatch_to_host", boolText c.dispatchToHost), ("comm_first", boolText c.commFirst)]

def layerText : ServiceLayer → String
  | .checkpoint => "Checkpoint"
  | .threads => "Threads"
  | .comm => "Comm"

def phaseText : Phase → String
  | .idle => "Idle"
  | .checkpoint => "Checkpoint"
  | .restore => "Restore"

def text (s : Services) : String :=
  fieldsText "Services"
    [("config", configText s.config), ("rank", s.comm.rank.toNat.repr),
      ("world_size", s.comm.world.toNat.repr),
      ("order", "[" ++ ", ".intercalate (s.order.map layerText) ++ "]"),
      ("phase", phaseText s.phase)]

end Services

end ParticleSim
