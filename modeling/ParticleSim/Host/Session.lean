import ParticleSim.FileSystem.Basic
import ParticleSim.Host.Services
import ParticleSim.Simulation.Record

/-!
# Host — Checkpoint and restore

A checkpoint or a restore is a session.  There is at most one at a time; who asks for another
meanwhile is refused and nothing changes (`Host.enter`).  During a session the control layer is
called back, to serialize its state or to take it back; a callback may do what it likes with the
process and with what the control layer keeps for itself (`ControlM`).

* `Host.checkpoint` writes a simulation to an output, `Host.checkpointToPath` to a file, which takes
  its final name only when it is complete.
* `Host.restoreProgram` reads a simulation.  The ranks compare notes twice: after every record is
  read, and after the simulation is put together.  `Host.restore` runs it over a connection that
  answers by itself.
-/

namespace ParticleSim

/-- The process of one rank: its services, its files, and the list instances that it has left. -/
structure Host where
  services : Services
  files : FileSystem
  supply : InstanceSupply

/-- What a callback does to the process and to the control layer's own `σ`. -/
abbrev ControlM (σ : Type) := EStateM CheckpointError (Host × σ)

/-- The file of a rank, by a name that the ranks have in common. -/
def rankPath (base : String) (rank : UInt32) : String := base ++ "." ++ rank.toNat.repr

/-- Where the stream for a file is written until it is complete. -/
def partialPath (path : String) : String := path ++ ".partial"

namespace Host

def setPhase (p : Host) (phase : Phase) : Host :=
  { p with services := { p.services with phase } }

/-- Open a session. -/
def enter (p : Host) (requested : Phase) : Except CheckpointError Host :=
  match p.services.phase with
  | .idle => .ok (p.setPhase requested)
  | active => .error (.reentrant requested active)

/-- Close the session. -/
def leave (p : Host) : Host := p.setPhase .idle

variable {σ τ : Type}

/-! ### Checkpoints -/

/-- What a checkpoint comes to. -/
structure Checkpointed (σ : Type) where
  /-- How many objects were written. -/
  result : Except CheckpointError UInt64
  simulation : Simulation
  /-- What arrived at the output. -/
  output : Bytes
  host : Host
  layer : σ

/-- Within a session: have the control state serialized, put it into the simulation and write all of
it. -/
def writeCheckpoint (p : Host) (s : Simulation) (capacity : Option Nat)
    (pickle : ControlM σ Bytes) (layer : σ) : Checkpointed σ :=
  match pickle (p, layer) with
  | .error e (p, layer) => ⟨.error e, s, [], p, layer⟩
  | .ok control (p, layer) =>
    let s := { s with control }
    let emission : Emission :=
      match s.orphans with
      | [] => (Stream.write p.services.origin s.registry s.store).within capacity
      | orphans => .fail (.orphaned orphans)
    match emission.failure with
    | some e => ⟨.error e, s, emission.bytes, p, layer⟩
    | none => ⟨.ok (.ofNat s.registry.size), s, emission.bytes, p, layer⟩

/-- Write a simulation to an output that holds `capacity` bytes, or any number. -/
def checkpoint (p : Host) (s : Simulation) (capacity : Option Nat) (pickle : ControlM σ Bytes)
    (layer : σ) : Checkpointed σ :=
  match p.enter .checkpoint with
  | .error e => ⟨.error e, s, [], p, layer⟩
  | .ok p =>
    let c := p.writeCheckpoint s capacity pickle layer
    { c with host := c.host.leave }

/-- Delete a file if there is one. -/
def discardFile (p : Host) (path : String) : Host :=
  match p.files.remove path with
  | .ok files => { p with files }
  | .error _ => p

/-- Within a session: write a simulation beside a path, and give it its name when it is complete. -/
def writeFile (p : Host) (s : Simulation) (path : String) (pickle : ControlM σ Bytes)
    (layer : σ) : Checkpointed σ :=
  match p.files.create (partialPath path) with
  | .error fault => ⟨.error (.io fault), s, [], p.discardFile (partialPath path), layer⟩
  | .ok files =>
    let c := { p with files }.writeCheckpoint s none pickle layer
    match c.result with
    | .error _ => { c with host := c.host.discardFile (partialPath path) }
    | .ok _ =>
      let files := c.host.files.write (partialPath path) c.output
      match files.rename (partialPath path) path with
      | .error fault => { c with result := .error (.io fault), host := { c.host with files } }
      | .ok files => { c with host := { c.host with files } }

/-- Write a simulation to a file. -/
def checkpointToPath (p : Host) (s : Simulation) (path : String) (pickle : ControlM σ Bytes)
    (layer : σ) : Checkpointed σ :=
  match p.enter .checkpoint with
  | .error e => ⟨.error e, s, [], p, layer⟩
  | .ok p =>
    let c := p.writeFile s path pickle layer
    { c with host := c.host.leave }

/-! ### Restores -/

/-- Read every record of a stream that this rank wrote. -/
def decodeStream (comm : Communicator) (behaviors : Behaviors) (input : Bytes) :
    Except CheckpointError (Header × Staging Staged) :=
  match Stream.read (Staged.decoders behaviors) input with
  | .error e _ => .error e
  | .ok (h, staged) _ =>
    if h.origin.rank = comm.rank ∧ h.origin.world = comm.world then .ok (h, staged)
    else
      .error (.streamFormat
        (.foreignRank h.origin.rank h.origin.world comm.rank comm.world))

/-- Resolve the references and put the simulation together. -/
def connectStream (behaviors : Behaviors) (h : Header) (staged : Staging Staged)
    (supply : InstanceSupply) : Except CheckpointError (Simulation × InstanceSupply) :=
  match Staging.connectAll Staged.connect staged with
  | .error e _ => .error e
  | .ok () staged => Simulation.assemble behaviors h.cursor staged supply

/-- Compare outcomes with the other ranks.  A rank with an error of its own keeps it; the others
learn that a peer has failed. -/
def agree {α : Type} (p : Host) (stage : Stage) (outcome : Except CheckpointError α) :
    RankProgram (Except CheckpointError α × Host) := do
  let answer ← RankProgram.vote outcome.isOk
  let p := { p with services := { p.services with round := p.services.round + 1 } }
  match answer, outcome with
  | .error e, _ => return (.error (.comm e), p)
  | .ok _, .error e => return (.error e, p)
  | .ok false, .ok _ => return (.error (.peerFailed stage), p)
  | .ok true, .ok a => return (.ok a, p)

/-- Within a session: read a simulation, together with the other ranks. -/
def readSimulation (p : Host) (input : Except CheckpointError Bytes) (behaviors : Behaviors) :
    RankProgram (Except CheckpointError Simulation × Host) := do
  match ← p.agree .decode (input.bind (decodeStream p.services.comm behaviors)) with
  | (.error e, p) => return (.error e, p)
  | (.ok (h, staged), p) =>
    match ← p.agree .connect (connectStream behaviors h staged p.supply) with
    | (.error e, p) => return (.error e, p)
    | (.ok (s, supply), p) => return (.ok s, { p with supply })

/-- What a restore comes to. -/
structure Restored (σ τ : Type) where
  /-- The simulation, and what the callback made of the control state. -/
  result : Except CheckpointError (Simulation × τ)
  host : Host
  layer : σ

/-- Read a simulation, together with the other ranks, and give the control layer its state back. -/
def restoreProgram (p : Host) (input : Except CheckpointError Bytes) (behaviors : Behaviors)
    (unpickle : Bytes → ControlM σ τ) (layer : σ) : RankProgram (Restored σ τ) :=
  match p.enter .restore with
  | .error e => return ⟨.error e, p, layer⟩
  | .ok p => do
    match ← p.readSimulation input behaviors with
    | (.error e, p) => return ⟨.error e, p.leave, layer⟩
    | (.ok s, p) =>
      match unpickle s.control (p, layer) with
      | .error e (p, layer) => return ⟨.error e, p.leave, layer⟩
      | .ok a (p, layer) => return ⟨.ok (s, a), p.leave, layer⟩

/-- Read a simulation over a connection that answers by itself. -/
def restore (p : Host) (input : Except CheckpointError Bytes) (behaviors : Behaviors)
    (unpickle : Bytes → ControlM σ τ) (layer : σ) : Restored σ τ :=
  (p.restoreProgram input behaviors unpickle layer).run p.services.comm.answer p.services.round

/-- The content of a file as the input of a restore. -/
def fileInput (p : Host) (path : String) : Except CheckpointError Bytes :=
  match p.files.read path with
  | .ok content => .ok content
  | .error fault => .error (.io fault)

/-- Read a simulation from a file.  A file that cannot be read counts as a stream that cannot. -/
def restoreFromPath (p : Host) (path : String) (behaviors : Behaviors)
    (unpickle : Bytes → ControlM σ τ) (layer : σ) : Restored σ τ :=
  p.restore (p.fileInput path) behaviors unpickle layer

end Host

end ParticleSim
