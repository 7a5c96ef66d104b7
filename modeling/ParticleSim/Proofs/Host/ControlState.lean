import ParticleSim.Proofs.Host.Calls
import ParticleSim.Proofs.Restore.Soundness
import ParticleSim.Proofs.Simulation.Conserved

/-!
# Host — Where the control state comes from

A checkpoint puts what the control layer serializes into the simulation before it writes anything,
and leaves it there when it fails afterwards.  So the control state of a simulation is what was
serialized last, for a checkpoint that succeeded or for one that failed; a checkpoint that fails
before anything is serialized changes nothing, and none ever changes anything else
(`Simulation.Runs.control_state`).

What a callback returns during a call is observed by a callback that does the same and takes a note
(`ControlM.noted`); nothing in the call depends on that (`Host.CheckpointCall.perform_noted`).
-/

namespace ParticleSim

/-- The first value is that of the first item that has one. -/
theorem findSome?_eq_find?_bind {α β : Type} {f : α → Option β} {has : α → Bool} {l : List α}
    (h : ∀ a ∈ l, (f a).isSome = true ↔ has a = true) : l.findSome? f = (l.find? has).bind f := by
  induction l with
  | nil => rfl
  | cons a l ih =>
      obtain ⟨ha, hl⟩ := List.forall_mem_cons.mp h
      rw [List.findSome?_cons, List.find?_cons]
      cases hf : f a with
      | some b =>
          rw [ha.mp (by rw [hf]; rfl)]
          exact hf.symm
      | none =>
          have hnot : has a = false := Bool.eq_false_iff.mpr fun hhas => by
            simpa [hf] using ha.mpr hhas
          rw [hnot]
          exact ih hl

/-- The same callback, which also notes what it returns. -/
def ControlM.noted {σ : Type} (m : ControlM σ Bytes) : ControlM (σ × Option Bytes) Bytes :=
  fun (p, layer, note) =>
    match m (p, layer) with
    | .ok control (p, layer) => .ok control (p, layer, some control)
    | .error e (p, layer) => .error e (p, layer, note)

namespace Host

variable {σ : Type} {p : Host} {s : Simulation} {pickle : ControlM σ Bytes} {layer : σ}

/-! ### Calls that are observed -/

/-- The same outcome with a note. -/
def Checkpointed.withNote (c : Checkpointed σ) (note : Option Bytes) :
    Checkpointed (σ × Option Bytes) :=
  ⟨c.result, c.simulation, c.output, c.host, (c.layer, note)⟩

/-- A note accounts for an outcome: what is noted is what the simulation has for its control state
afterwards, and without a note the simulation is as it was. -/
structure Noted (s : Simulation) (note : Option Bytes) (c : Checkpointed σ) : Prop where
  installed : c.simulation = { s with control := note.getD s.control }
  serialized : ∀ n, c.result = .ok n → ∃ control, note = some control

/-- What becomes of the process, and errors that come later, are none of the note's business. -/
theorem Noted.map {note : Option Bytes} {c : Checkpointed σ} (h : Noted s note c)
    {result : Except CheckpointError UInt64} (host : Host)
    (hr : ∀ n, result = .ok n → c.result = .ok n) : Noted s note { c with result, host } where
  installed := h.installed
  serialized n hn := h.serialized n (hr n hn)

theorem writeCheckpoint_noted (p : Host) (s : Simulation) (capacity : Option Nat)
    (pickle : ControlM σ Bytes) (layer : σ) :
    ∃ note, p.writeCheckpoint s capacity pickle.noted (layer, none) =
        (p.writeCheckpoint s capacity pickle layer).withNote note ∧
      Noted s note (p.writeCheckpoint s capacity pickle layer) := by
  simp only [writeCheckpoint, ControlM.noted]
  cases pickle (p, layer) with
  | error e state => exact ⟨none, rfl, rfl, fun n h => by cases h⟩
  | ok control state =>
      simp only
      split <;> exact ⟨some control, rfl, rfl, fun _ _ => ⟨control, rfl⟩⟩

theorem checkpoint_noted (p : Host) (s : Simulation) (capacity : Option Nat)
    (pickle : ControlM σ Bytes) (layer : σ) :
    ∃ note, p.checkpoint s capacity pickle.noted (layer, none) =
        (p.checkpoint s capacity pickle layer).withNote note ∧
      Noted s note (p.checkpoint s capacity pickle layer) := by
  simp only [checkpoint]
  cases p.enter .checkpoint with
  | error e => exact ⟨none, rfl, rfl, fun n h => by cases h⟩
  | ok q =>
      obtain ⟨note, hsame, h⟩ := q.writeCheckpoint_noted s capacity pickle layer
      simp only [hsame]
      exact ⟨note, rfl, h.map _ fun _ hn => hn⟩

theorem writeFile_noted (p : Host) (s : Simulation) (path : String) (pickle : ControlM σ Bytes)
    (layer : σ) :
    ∃ note, p.writeFile s path pickle.noted (layer, none) =
        (p.writeFile s path pickle layer).withNote note ∧
      Noted s note (p.writeFile s path pickle layer) := by
  simp only [writeFile]
  cases p.files.create (partialPath path) with
  | error fault => exact ⟨none, rfl, rfl, fun n h => by cases h⟩
  | ok files =>
      obtain ⟨note, hsame, h⟩ := writeCheckpoint_noted { p with files } s none pickle layer
      simp only [hsame, Checkpointed.withNote]
      generalize writeCheckpoint { p with files } s none pickle layer = c at h ⊢
      obtain ⟨_ | n, s', output, q, layer'⟩ := c
      · exact ⟨note, rfl, h.map _ fun _ hn => hn⟩
      · simp only
        cases (q.files.write (partialPath path) output).rename (partialPath path) path with
        | error fault => exact ⟨note, rfl, h.map _ fun _ hn => by cases hn⟩
        | ok files => exact ⟨note, rfl, h.map _ fun _ hn => hn⟩

theorem checkpointToPath_noted (p : Host) (s : Simulation) (path : String)
    (pickle : ControlM σ Bytes) (layer : σ) :
    ∃ note, p.checkpointToPath s path pickle.noted (layer, none) =
        (p.checkpointToPath s path pickle layer).withNote note ∧
      Noted s note (p.checkpointToPath s path pickle layer) := by
  simp only [checkpointToPath]
  cases p.enter .checkpoint with
  | error e => exact ⟨none, rfl, rfl, fun n h => by cases h⟩
  | ok q =>
      obtain ⟨note, hsame, h⟩ := q.writeFile_noted s path pickle layer
      simp only [hsame]
      exact ⟨note, rfl, h.map _ fun _ hn => hn⟩

namespace CheckpointCall

/-- The same call with a callback that takes a note. -/
def noted (c : CheckpointCall σ) : CheckpointCall (σ × Option Bytes) :=
  ⟨c.host, c.outlet, c.pickle.noted, c.layer, none⟩

/-- What the callback returns during the call, unless it fails or is not called. -/
def serialized? (c : CheckpointCall σ) (s : Simulation) : Option Bytes :=
  (c.noted.perform s).layer.2

/-- **What a checkpoint leaves of the simulation** is all of it, with the control state that was
serialized; and it does not succeed without that. -/
theorem perform_noted (c : CheckpointCall σ) (s : Simulation) :
    c.noted.perform s = (c.perform s).withNote (c.serialized? s) ∧
      Noted s (c.serialized? s) (c.perform s) := by
  obtain ⟨note, hsame, h⟩ : ∃ note, c.noted.perform s = (c.perform s).withNote note ∧
      Noted s note (c.perform s) := by
    obtain ⟨p, capacity | path, pickle, layer⟩ := c
    · exact p.checkpoint_noted s capacity pickle layer
    · exact p.checkpointToPath_noted s path pickle layer
  have hnote : c.serialized? s = note := by rw [serialized?, hsame]; rfl
  rw [hnote]
  exact ⟨hsame, h⟩

end CheckpointCall

end Host

namespace Simulation

open Host (CheckpointCall)

variable {s₀ s s' : Simulation} {control₀ : Bytes}

/-! ### Runs with checkpoints -/

/-- A simulation as it comes into being, and its first control state: a new one has none, and a
restored one the one that is staged from the stream. -/
inductive StartedWith : Simulation → Bytes → Prop where
  | new (behaviors : Behaviors) (supply : InstanceSupply) :
      StartedWith (new behaviors supply).1 []
  | restored {σ τ : Type} {p : Host} {input : Bytes} {behaviors : Behaviors}
      {unpickle : Bytes → ControlM σ τ} {layer : σ} {s : Simulation} {a : τ} {header : Header}
      {st : Staging Staged} {rest : Bytes} {id : ObjectId} {control : Bytes}
      (result : (p.restore (.ok input) behaviors unpickle layer).result = .ok (s, a))
      (read : Stream.read (Staged.decoders behaviors) input = .ok (header, st) rest)
      (record : st.object? id = some (.control control)) : StartedWith s control

/-- What came of a checkpoint call: what was serialized, and what the call returned. -/
structure Outcome where
  serialized? : Option Bytes
  result : Except CheckpointError UInt64

/-- A simulation goes through operations and checkpoint calls; the outcome of the last call comes
first. -/
inductive Runs (s₀ : Simulation) : List Outcome → Simulation → Prop where
  | start : Runs s₀ [] s₀
  | operation {past : List Outcome} {s s' : Simulation} (run : Runs s₀ past s)
      (op : s.Operation s') : Runs s₀ past s'
  | checkpoint {past : List Outcome} {s : Simulation} {σ : Type} (run : Runs s₀ past s)
      (call : CheckpointCall σ) :
      Runs s₀ (⟨call.serialized? s, (call.perform s).result⟩ :: past) (call.perform s).simulation

/-- A simulation that is put together has the one control state that was staged. -/
theorem control_of_holds {st : Staging Staged} (h : st.Holds s) {id : ObjectId} {control : Bytes}
    (hc : st.object? id = some (.control control)) : s.control = control := by
  have hid := h.ids.mem_iff.mp (Staging.mem_ids_of_object? hc)
  rw [owned_eq_map_parts] at hid
  obtain ⟨e, he, rfl⟩ := List.mem_map.mp hid
  have hobject := h.parts e he
  rw [hc, Option.some.injEq] at hobject
  rcases mem_parts.mp he with rfl | rfl | ⟨F, rfl⟩ | ⟨F, c, -, rfl⟩ <;> cases hobject
  rfl

theorem StartedWith.control_eq (h : StartedWith s control₀) : s.control = control₀ := by
  cases h with
  | new behaviors supply => rfl
  | restored result read record =>
      obtain ⟨_, header, st, rest, ⟨⟩, hr, -, hholds, -⟩ := Host.of_restore result
      obtain ⟨⟩ := read.symm.trans hr
      exact control_of_holds hholds record

/-- The control state is what was serialized last, whatever came of that. -/
theorem Runs.control_eq {past : List Outcome} (run : Runs s₀ past s) :
    s.control = (past.findSome? Outcome.serialized?).getD s₀.control := by
  induction run with
  | start => rfl
  | operation run op ih => rw [op.conserved.control, ih]
  | checkpoint run call ih =>
      rw [(call.perform_noted _).2.installed, List.findSome?_cons]
      cases call.serialized? _ with
      | none => exact ih
      | some control => rfl

/-- No call succeeded without a serialized state. -/
theorem Runs.serialized {past : List Outcome} (run : Runs s₀ past s) :
    ∀ o ∈ past, o.result.isOk = true → o.serialized?.isSome = true := by
  induction run with
  | start => exact fun c hc => absurd hc List.not_mem_nil
  | operation run op ih => exact ih
  | checkpoint run call ih =>
      refine List.forall_mem_cons.mpr ⟨fun hok => ?_, ih⟩
      cases hr : (call.perform _).result with
      | error e =>
          rw [hr] at hok
          cases hok
      | ok n =>
          obtain ⟨control, hc⟩ := (call.perform_noted _).2.serialized n hr
          exact Option.isSome_iff_exists.mpr ⟨control, hc⟩

/-- **Where the control state comes from.**  At all times it is what was serialized last, for a
checkpoint that succeeded or for one that failed, or else what the simulation started with; so it is
the state of the last checkpoint that succeeded as long as no other has serialized one.  The next
checkpoint, of any process and to any output, leaves all else as it is; it needs a serialized state
to succeed, and changes nothing exactly when it serializes none but the one that is there. -/
theorem Runs.control_state {past : List Outcome} (start : StartedWith s₀ control₀)
    (run : Runs s₀ past s) :
    s.control = (past.findSome? Outcome.serialized?).getD control₀ ∧
    ((∀ o ∈ past, o.serialized?.isSome = true → o.result.isOk = true) →
      s.control = ((past.find? fun o => o.result.isOk).bind Outcome.serialized?).getD control₀) ∧
    ∀ {σ : Type} (call : CheckpointCall σ),
      (call.perform s).simulation = { s with control := (call.serialized? s).getD s.control } ∧
      (∀ n, (call.perform s).result = .ok n → ∃ control, call.serialized? s = some control) ∧
      ((call.perform s).simulation = s ↔
        ∀ control, call.serialized? s = some control → control = s.control) := by
  have hlast : s.control = (past.findSome? Outcome.serialized?).getD control₀ :=
    start.control_eq ▸ run.control_eq
  refine ⟨hlast, fun hfailed => ?_, fun call => ?_⟩
  · rw [hlast, findSome?_eq_find?_bind fun c hc => ⟨hfailed c hc, run.serialized c hc⟩]
  · obtain ⟨-, hnoted⟩ := call.perform_noted s
    refine ⟨hnoted.installed, hnoted.serialized, ?_⟩
    rw [hnoted.installed]
    cases call.serialized? s with
    | none => exact iff_of_true rfl fun _ h => by cases h
    | some control =>
        constructor
        · rintro h _ ⟨⟩
          exact congrArg Simulation.control h
        · intro h
          rw [Option.getD_some, h control rfl]

/-- A wall is defined, a checkpoint fails because its output is full, and the next one is refused:
the state that was serialized for the first is there. -/
theorem Runs.control_state_overfull :
    let s := (define .boundary "wall" BoundaryKind.reflect BoundaryParams.none none).leaves
      (new .builtin ⟨0⟩).1
    let overfull : CheckpointCall Unit :=
      ⟨⟨⟨{}, .alone, .idle, 1⟩, .empty, ⟨3⟩⟩, .stream (some 3), fun state => .ok [1] state, ()⟩
    let refused : CheckpointCall Unit :=
      ⟨⟨⟨{}, .alone, .restore, 1⟩, .empty, ⟨3⟩⟩, .file "deck", fun state => .ok [2] state, ()⟩
    (refused.perform (overfull.perform s).simulation).simulation.control = [1] :=
  (Runs.control_state (.new .builtin ⟨0⟩) (((Runs.start.operation (.define .boundary "wall"
    BoundaryKind.reflect BoundaryParams.none none)).checkpoint _).checkpoint _)).1.trans
      (by decide +kernel)

/-- **A checkpoint that fails may have changed the simulation**: its output is full, and the state
that was serialized for it is there to stay. -/
theorem control_of_failed_checkpoint :
    let c := Host.checkpoint ⟨⟨{}, .alone, .idle, 1⟩, .empty, ⟨3⟩⟩ (Simulation.new .builtin ⟨0⟩).1
      (some 3) (fun state => .ok [1] state) ()
    c.result = .error (.io .outputFull) ∧ c.simulation ≠ (Simulation.new .builtin ⟨0⟩).1 ∧
      c.simulation.control = [1] :=
  ⟨by decide +kernel, fun h => absurd (congrArg Simulation.control h) (by decide +kernel),
    by decide +kernel⟩

end Simulation

end ParticleSim
