import ParticleSim.Proofs.Restore.Assembly

/-!
# Host — What it takes to succeed

* `Host.checkpoint_eq_ok`: a checkpoint succeeds when no session is open, the control layer
  serializes its state and the simulation with that state can be written.
* `Host.restore_eq_ok`: a restore succeeds when no session is open, the stream is this rank's, both
  votes of the ranks are in favour, the simulation can be put together and the control layer takes
  its state.
-/

namespace ParticleSim

/-- The process and the control layer after a callback, whether it succeeded or not. -/
def ControlM.leaves {σ α : Type} (m : ControlM σ α) (state : Host × σ) : Host × σ :=
  match m state with
  | .ok _ state => state
  | .error _ state => state

namespace Host

variable {σ τ : Type} {p : Host} {s : Simulation} {layer : σ}

theorem enter_eq_ok {requested : Phase} {p' : Host} :
    p.enter requested = .ok p' ↔ p.services.phase = .idle ∧ p' = p.setPhase requested := by
  rw [enter]
  cases h : p.services.phase <;> simp [eq_comm]

/-! ### Checkpoints -/

/-- Within a session nothing but the callback changes the process. -/
theorem writeCheckpoint_leaves (p : Host) (s : Simulation) (capacity : Option Nat)
    (pickle : ControlM σ Bytes) (layer : σ) :
    ((p.writeCheckpoint s capacity pickle layer).host,
      (p.writeCheckpoint s capacity pickle layer).layer) = pickle.leaves (p, layer) := by
  rw [writeCheckpoint, ControlM.leaves]
  cases pickle (p, layer) with
  | error e state => rfl
  | ok control state =>
      simp only
      split <;> rfl

theorem writeCheckpoint_eq_ok {capacity : Option Nat} {pickle : ControlM σ Bytes} {n : UInt64}
    {s' : Simulation} {bytes : Bytes} {p' : Host} {layer' : σ} :
    p.writeCheckpoint s capacity pickle layer = ⟨.ok n, s', bytes, p', layer'⟩ ↔
      ∃ control, pickle (p, layer) = .ok control (p', layer') ∧ s' = { s with control } ∧
        s'.orphans = [] ∧
        (Stream.write p'.services.origin s.registry s'.store).within capacity = .put bytes ∧
        n = .ofNat s.registry.size := by
  rw [writeCheckpoint]
  cases hp : pickle (p, layer) with
  | error e q => simp
  | ok control q =>
      obtain ⟨q, layer₁⟩ := q
      simp only
      cases ho : ({ s with control } : Simulation).orphans with
      | cons id ids =>
          constructor
          · intro h
            cases h
          · rintro ⟨control', ⟨⟩, rfl, ho', -⟩
            rw [ho] at ho'
            cases ho'
      | nil =>
          simp only
          cases hf : ((Stream.write q.services.origin s.registry { s with control }.store).within
              capacity).failure with
          | some e =>
              constructor
              · intro h
                cases h
              · rintro ⟨control', ⟨⟩, rfl, -, hb, -⟩
                rw [hb] at hf
                cases hf
          | none =>
              constructor
              · rintro ⟨⟩
                exact ⟨control, rfl, rfl, ho, Emission.eq_put_iff.mpr ⟨hf, rfl⟩, rfl⟩
              · rintro ⟨control', ⟨⟩, rfl, -, hb, rfl⟩
                rw [hb]
                rfl

/-- **A checkpoint succeeds** when no session is open, the control layer serializes its state and
the simulation with that state is written to the end. -/
theorem checkpoint_eq_ok {capacity : Option Nat} {pickle : ControlM σ Bytes} {n : UInt64}
    {s' : Simulation} {bytes : Bytes} {p' : Host} {layer' : σ} :
    p.checkpoint s capacity pickle layer = ⟨.ok n, s', bytes, p', layer'⟩ ↔
      p.services.phase = .idle ∧
        ∃ control q, pickle (p.setPhase .checkpoint, layer) = .ok control (q, layer') ∧
          p' = q.leave ∧ s' = { s with control } ∧ s'.orphans = [] ∧
          (Stream.write q.services.origin s.registry s'.store).within capacity = .put bytes ∧
          n = .ofNat s.registry.size := by
  rw [checkpoint]
  cases he : p.enter .checkpoint with
  | error e =>
      have hphase : p.services.phase ≠ .idle := by
        intro h
        rw [enter_eq_ok.mpr ⟨h, rfl⟩] at he
        cases he
      simp [hphase]
  | ok p₁ =>
      obtain ⟨hphase, rfl⟩ := enter_eq_ok.mp he
      simp only [hphase, true_and]
      constructor
      · intro h
        obtain ⟨q, hq⟩ : ∃ q, (p.setPhase .checkpoint).writeCheckpoint s capacity pickle layer =
            ⟨.ok n, s', bytes, q, layer'⟩ ∧ p' = q.leave := by
          generalize (p.setPhase .checkpoint).writeCheckpoint s capacity pickle layer = c at h ⊢
          cases c
          cases h
          exact ⟨_, rfl, rfl⟩
        obtain ⟨control, hp, hs, ho, hb, hn⟩ := writeCheckpoint_eq_ok.mp hq.1
        exact ⟨control, q, hp, hq.2, hs, ho, hb, hn⟩
      · rintro ⟨control, q, hp, rfl, hs, ho, hb, hn⟩
        rw [writeCheckpoint_eq_ok.mpr ⟨control, hp, hs, ho, hb, hn⟩]

/-! ### Votes -/

/-- What a rank makes of its own outcome when it has heard the others. -/
def settle {α : Type} (stage : Stage) (answer : Except CommError Bool)
    (outcome : Except CheckpointError α) : Except CheckpointError α :=
  match answer, outcome with
  | .error e, _ => .error (.comm e)
  | .ok _, .error e => .error e
  | .ok false, .ok _ => .error (.peerFailed stage)
  | .ok true, .ok a => .ok a

theorem settle_eq_ok {α : Type} {stage : Stage} {answer : Except CommError Bool}
    {outcome : Except CheckpointError α} {a : α} :
    settle stage answer outcome = .ok a ↔ answer = .ok true ∧ outcome = .ok a := by
  rcases answer with _ | _ | _ <;> cases outcome <;> simp [settle]

/-- The host after one more vote. -/
def voted (p : Host) : Host :=
  { p with services := { p.services with round := p.services.round + 1 } }

/-- A vote takes one round, whatever comes of it. -/
theorem run_agree_bind {α β : Type} (p : Host) (stage : Stage) (outcome : Except CheckpointError α)
    (next : Except CheckpointError α × Host → RankProgram β)
    (answer : Nat → Bool → Except CommError Bool) (n : Nat) :
    (p.agree stage outcome >>= next).run answer n =
      (next (settle stage (answer n outcome.isOk) outcome, p.voted)).run answer (n + 1) := by
  show (RankProgram.barrier outcome.isOk _).run answer n = _
  rw [RankProgram.run]
  rcases h : answer n outcome.isOk with _ | _ | _ <;> cases outcome <;> rfl

/-- What is made of a result needs no barrier. -/
theorem run_bind_pure {α β : Type} (x : RankProgram α) (f : α → β)
    (answer : Nat → Bool → Except CommError Bool) (n : Nat) :
    (x >>= fun a => pure (f a)).run answer n = f (x.run answer n) := by
  induction x generalizing n with
  | done a => rfl
  | barrier vote next ih => exact ih (answer n vote) (n + 1)

/-! ### Restores -/

theorem decodeStream_eq_ok {comm : Communicator} {behaviors : Behaviors} {input : Bytes} {h : Header}
    {st : Staging Staged} :
    decodeStream comm behaviors input = .ok (h, st) ↔
      (∃ rest, Stream.read (Staged.decoders behaviors) input = .ok (h, st) rest) ∧
        h.origin.rank = comm.rank ∧ h.origin.world = comm.world := by
  rw [decodeStream]
  cases hr : Stream.read (Staged.decoders behaviors) input with
  | error e rest => simp
  | ok a rest =>
      obtain ⟨h', st'⟩ := a
      simp only [EStateM.Result.ok.injEq, Prod.mk.injEq]
      by_cases ho : h'.origin.rank = comm.rank ∧ h'.origin.world = comm.world
      · rw [if_pos ho]
        constructor
        · rintro ⟨⟩
          exact ⟨⟨rest, ⟨rfl, rfl⟩, rfl⟩, ho⟩
        · rintro ⟨⟨_, ⟨rfl, rfl⟩, -⟩, -⟩
          rfl
      · rw [if_neg ho]
        constructor
        · intro h
          cases h
        · rintro ⟨⟨_, ⟨rfl, rfl⟩, -⟩, ho'⟩
          exact absurd ho' ho

/-- What reading a simulation comes to, and the host then: after one vote or after two. -/
def reading (p : Host) (input : Except CheckpointError Bytes) (behaviors : Behaviors)
    (answer : Nat → Bool → Except CommError Bool) (n : Nat) :
    Except CheckpointError Simulation × Host :=
  let decoded := input.bind (decodeStream p.services.comm behaviors)
  match settle .decode (answer n decoded.isOk) decoded with
  | .error e => (.error e, p.voted)
  | .ok (h, st) =>
    let connected := connectStream behaviors h st p.supply
    match settle .connect (answer (n + 1) connected.isOk) connected with
    | .error e => (.error e, p.voted.voted)
    | .ok (s, supply) => (.ok s, { p.voted.voted with supply })

theorem run_readSimulation (p : Host) (input : Except CheckpointError Bytes) (behaviors : Behaviors)
    (answer : Nat → Bool → Except CommError Bool) (n : Nat) :
    (p.readSimulation input behaviors).run answer n = p.reading input behaviors answer n := by
  rw [readSimulation, run_agree_bind, reading]
  simp only
  cases settle .decode (answer n (input.bind (decodeStream p.services.comm behaviors)).isOk)
      (input.bind (decodeStream p.services.comm behaviors)) with
  | error e => rfl
  | ok a =>
      simp only
      rw [run_agree_bind]
      have hsupply : p.voted.supply = p.supply := rfl
      rw [hsupply]
      cases settle .connect (answer (n + 1) (connectStream behaviors a.1 a.2 p.supply).isOk)
        (connectStream behaviors a.1 a.2 p.supply) <;> rfl

theorem reading_eq_ok {input : Except CheckpointError Bytes} {behaviors : Behaviors}
    {answer : Nat → Bool → Except CommError Bool} {n : Nat} {p' : Host} :
    p.reading input behaviors answer n = (.ok s, p') ↔
      ∃ bytes h st supply, input = .ok bytes ∧
        decodeStream p.services.comm behaviors bytes = .ok (h, st) ∧ answer n true = .ok true ∧
        connectStream behaviors h st p.supply = .ok (s, supply) ∧
        answer (n + 1) true = .ok true ∧ p' = { p.voted.voted with supply } := by
  rw [reading]
  constructor
  · intro h
    simp only at h
    split at h
    · cases h
    · next header st hd =>
      split at h
      · cases h
      · next s' supply hc =>
        cases h
        obtain ⟨h₁, hd⟩ := settle_eq_ok.mp hd
        obtain ⟨h₂, hc⟩ := settle_eq_ok.mp hc
        rw [hd] at h₁
        rw [hc] at h₂
        cases input with
        | error e => cases hd
        | ok bytes => exact ⟨bytes, header, st, supply, rfl, hd, h₁, hc, h₂, rfl⟩
  · rintro ⟨bytes, h, st, supply, rfl, hd, h₁, hc, h₂, rfl⟩
    have hd' : (Except.ok bytes).bind (decodeStream p.services.comm behaviors) = .ok (h, st) := hd
    simp only [hd', settle_eq_ok.mpr ⟨h₁, rfl⟩, hc, settle_eq_ok.mpr ⟨h₂, rfl⟩, Except.isOk,
      Except.toBool]

/-- Give the control layer its state back, and close the session. -/
def giveBack (unpickle : Bytes → ControlM σ τ) (layer : σ) :
    Except CheckpointError Simulation × Host → Restored σ τ
  | (.error e, p) => ⟨.error e, p.leave, layer⟩
  | (.ok s, p) =>
    match unpickle s.control (p, layer) with
    | .error e (p, layer) => ⟨.error e, p.leave, layer⟩
    | .ok a (p, layer) => ⟨.ok (s, a), p.leave, layer⟩

theorem giveBack_eq_ok {unpickle : Bytes → ControlM σ τ} {a : τ}
    {read : Except CheckpointError Simulation × Host} :
    (giveBack unpickle layer read).result = .ok (s, a) ↔
      read.1 = .ok s ∧ ∃ state, unpickle s.control (read.2, layer) = .ok a state := by
  obtain ⟨_ | s', p'⟩ := read
  · simp [giveBack]
  · rw [giveBack]
    cases h : unpickle s'.control (p', layer) with
    | error e state =>
        simp only [reduceCtorEq, Except.ok.injEq, false_iff]
        rintro ⟨rfl, state', h'⟩
        rw [h] at h'
        cases h'
    | ok a' state =>
        simp only [Except.ok.injEq, Prod.mk.injEq]
        constructor
        · rintro ⟨rfl, rfl⟩
          exact ⟨rfl, state, h⟩
        · rintro ⟨rfl, state', h'⟩
          rw [h] at h'
          cases h'
          exact ⟨rfl, rfl⟩

/-- A restore of a rank without a session is reading a simulation, and giving the state back. -/
theorem restoreProgram_of_enter {p' : Host} (h : p.enter .restore = .ok p')
    (input : Except CheckpointError Bytes) (behaviors : Behaviors)
    (unpickle : Bytes → ControlM σ τ) (layer : σ) :
    p.restoreProgram input behaviors unpickle layer =
      p'.readSimulation input behaviors >>= fun read => pure (giveBack unpickle layer read) := by
  rw [restoreProgram, h]
  refine congrArg (p'.readSimulation input behaviors >>= ·) (funext fun read => ?_)
  obtain ⟨_ | s, p''⟩ := read
  · rfl
  · simp only [giveBack]
    cases unpickle s.control (p'', layer) <;> rfl

theorem restore_eq (p : Host) (input : Except CheckpointError Bytes) (behaviors : Behaviors)
    (unpickle : Bytes → ControlM σ τ) (layer : σ) :
    p.restore input behaviors unpickle layer =
      match p.enter .restore with
      | .error e => ⟨.error e, p, layer⟩
      | .ok p' =>
        giveBack unpickle layer
          (p'.reading input behaviors p.services.comm.answer p.services.round) := by
  rw [restore]
  cases h : p.enter .restore with
  | error e =>
      rw [restoreProgram, h]
      rfl
  | ok p' => rw [restoreProgram_of_enter h, run_bind_pure, run_readSimulation]

/-- **A restore succeeds** when no session is open, the stream is this rank's, the ranks agree
twice, the simulation can be put together and the control layer takes its state. -/
theorem restore_eq_ok {input : Except CheckpointError Bytes} {behaviors : Behaviors}
    {unpickle : Bytes → ControlM σ τ} {a : τ} :
    (p.restore input behaviors unpickle layer).result = .ok (s, a) ↔
      p.services.phase = .idle ∧
        ∃ bytes h st supply, input = .ok bytes ∧
          decodeStream p.services.comm behaviors bytes = .ok (h, st) ∧
          p.services.comm.answer p.services.round true = .ok true ∧
          connectStream behaviors h st p.supply = .ok (s, supply) ∧
          p.services.comm.answer (p.services.round + 1) true = .ok true ∧
          ∃ state, unpickle s.control
            ({ (p.setPhase .restore).voted.voted with supply }, layer) = .ok a state := by
  rw [restore_eq]
  cases he : p.enter .restore with
  | error e =>
      have hphase : p.services.phase ≠ .idle := by
        intro h
        rw [enter_eq_ok.mpr ⟨h, rfl⟩] at he
        cases he
      simp [hphase]
  | ok p₁ =>
      obtain ⟨hphase, rfl⟩ := enter_eq_ok.mp he
      simp only [hphase, true_and, giveBack_eq_ok]
      constructor
      · rintro ⟨hread, state, hu⟩
        obtain ⟨bytes, h, st, supply, hb, hd, h₁, hc, h₂, hp⟩ :=
          reading_eq_ok.mp (Prod.ext hread rfl)
        exact ⟨bytes, h, st, supply, hb, hd, h₁, hc, h₂, state,
          (congrArg (fun q => unpickle s.control (q, layer)) hp).symm.trans hu⟩
      · rintro ⟨bytes, h, st, supply, hb, hd, h₁, hc, h₂, state, hu⟩
        have hread : (p.setPhase .restore).reading input behaviors p.services.comm.answer
            p.services.round = (.ok s, { (p.setPhase .restore).voted.voted with supply }) :=
          reading_eq_ok.mpr ⟨bytes, h, st, supply, hb, hd, h₁, hc, h₂, rfl⟩
        rw [hread]
        exact ⟨rfl, state, hu⟩

end Host

end ParticleSim
