import ParticleSim.Proofs.Host.Sessions

/-!
# Host — Calls

A checkpoint goes to an output or to a file, and a restore comes from a stream or from a file; what
they do about the session is the same.  During another session a call is refused, and nothing has
happened.  Otherwise it opens a session and closes it again, whatever comes of it; the callback runs
within, in the phase of the session, or not at all.
-/

namespace ParticleSim

namespace Host

variable {σ τ : Type} {p : Host} {s : Simulation}

/-- Where a checkpoint goes: to an output that holds `capacity` bytes, or any number, or to a
file. -/
inductive Outlet where
  | stream (capacity : Option Nat)
  | file (path : String)

/-- A checkpoint call, but for the simulation. -/
structure CheckpointCall (σ : Type) where
  host : Host
  outlet : Outlet
  pickle : ControlM σ Bytes
  layer : σ

namespace CheckpointCall

def perform (c : CheckpointCall σ) (s : Simulation) : Checkpointed σ :=
  match c.outlet with
  | .stream capacity => c.host.checkpoint s capacity c.pickle c.layer
  | .file path => c.host.checkpointToPath s path c.pickle c.layer

end CheckpointCall

/-! ### Restores -/

/-- Where a restore reads. -/
inductive Inlet where
  | stream (input : Bytes)
  | file (path : String)

/-- A restore call. -/
structure RestoreCall (σ τ : Type) where
  host : Host
  inlet : Inlet
  behaviors : Behaviors
  unpickle : Bytes → ControlM σ τ
  layer : σ

namespace RestoreCall

def perform (c : RestoreCall σ τ) : Restored σ τ :=
  match c.inlet with
  | .stream input => c.host.restore (.ok input) c.behaviors c.unpickle c.layer
  | .file path => c.host.restoreFromPath path c.behaviors c.unpickle c.layer

end RestoreCall

end Host

end ParticleSim
