import ParticleSim.Proofs.Host.Sessions
import ParticleSim.Proofs.Rank.Laps

/-!
# Host — Ranks in lockstep

Ranks that boot together and then restore together, as often as they like, come to the same
barriers: at boot to one, in a restore to one when some rank has not read its stream, and else to
two (`Host.bootProgram_meet`, `Host.Attempt.program_meet`).  So what comes of it does not depend on
their turns (`RankProgram.Meet.concludes`), and it is known who fails with what.

* `Host.Entry` is what a restore has come to on a rank, and `Host.InLockstep` what the ranks can
  rely on in a restore.
* `Host.restores_in_lockstep`: they can, in every restore of every sequence of them, and so they can
  at boot.
* `Host.restores_settle`: when ranks go away meanwhile, the others come to rest all the same.
-/

namespace ParticleSim

open RankProgram

variable {σ τ : Type} {world : Nat}

theorem isOk_iff {ε α : Type} {x : Except ε α} : x.isOk = true ↔ ∃ a, x = .ok a := by
  cases x <;> simp [Except.isOk, Except.toBool]

theorem exists_error_iff {ε α : Type} {x : Except ε α} :
    (∃ e, x = .error e) ↔ ¬ ∃ a, x = .ok a := by
  cases x <;> simp

/-! ### One restore -/

/-- The error of a rank when not all have succeeded: its own, or that a peer has failed. -/
def blame {α : Type} (stage : Stage) : Except CheckpointError α → CheckpointError
  | .error e => e
  | .ok _ => .peerFailed stage

namespace Host

theorem settle_false {α : Type} (stage : Stage) (outcome : Except CheckpointError α) :
    settle stage (.ok false) outcome = .error (blame stage outcome) := by
  cases outcome <;> rfl

/-- **All ranks hear whether all have succeeded.** -/
theorem agree_meet {α : Type} (stage : Stage) (hosts : Fin world → Host)
    (outcomes : Fin world → Except CheckpointError α) :
    Meet (fun r => (hosts r).agree stage (outcomes r)) 1 fun r =>
      (settle stage (.ok (decide (∀ s, (outcomes s).isOk = true))) (outcomes r),
        (hosts r).voted) := by
  refine .barrier (fun r => rfl) (.done fun r => ?_)
  cases decide (∀ s, (outcomes s).isOk = true) <;> cases outcomes r <;> rfl

/-- A restore that a rank attempts. -/
structure Attempt (σ τ : Type) where
  host : Host
  input : Except CheckpointError Bytes
  behaviors : Behaviors
  unpickle : Bytes → ControlM σ τ
  layer : σ

namespace Attempt

variable (a : Attempt σ τ)

def program : RankProgram (Restored σ τ) :=
  a.host.restoreProgram a.input a.behaviors a.unpickle a.layer

/-- What the rank reads, when the stream is its own. -/
def decoded : Except CheckpointError (Header × Staging Staged) :=
  a.input.bind (decodeStream a.host.services.comm a.behaviors)

/-- The simulation that it puts together, and the supply then. -/
def connected : Except CheckpointError (Simulation × InstanceSupply) :=
  a.decoded.bind fun (h, staged) => connectStream a.behaviors h staged a.host.supply

/-- The host within the session. -/
def opened : Host := a.host.setPhase .restore

/-- What comes of it to give the control layer the state of a simulation back, after two votes. -/
def handOver (s : Simulation) (supply : InstanceSupply) : Restored σ τ :=
  giveBack a.unpickle a.layer (.ok s, { a.opened.voted.voted with supply })

end Attempt

theorem Attempt.exists_decoded {a : Attempt σ τ} (h : ∃ c, a.connected = .ok c) :
    ∃ d, a.decoded = .ok d := by
  obtain ⟨c, hc⟩ := h
  rw [connected] at hc
  cases hd : a.decoded with
  | error e =>
      rw [hd] at hc
      cases hc
  | ok d => exact ⟨d, rfl⟩

/-- What a restore has come to on a rank. -/
structure Entry (σ τ : Type) where
  attempt : Attempt σ τ
  restored : Restored σ τ
  /-- How many barriers the rank has been at. -/
  barriers : Nat

/-- What ranks can rely on in a restore. -/
structure InLockstep (entries : Fin world → Entry σ τ) : Prop where
  /-- When some rank does not read its stream, or the stream is not its own, each such rank fails
  with its own error, and every other one learns that a peer has failed. -/
  decode : (∃ s e, (entries s).attempt.decoded = .error e) → ∀ r, (entries r).barriers = 1 ∧
    (entries r).restored.result = .error (blame .decode (entries r).attempt.decoded)
  /-- Else, when some rank does not put its simulation together, the same goes for that. -/
  connect : (∀ s, ∃ d, (entries s).attempt.decoded = .ok d) →
    (∃ s e, (entries s).attempt.connected = .error e) → ∀ r, (entries r).barriers = 2 ∧
      (entries r).restored.result = .error (blame .connect (entries r).attempt.connected)
  /-- Else every rank gives its control layer the state back. -/
  unpickle : (∀ s, ∃ c, (entries s).attempt.connected = .ok c) → ∀ r, (entries r).barriers = 2 ∧
    ∃ s supply, (entries r).attempt.connected = .ok (s, supply) ∧
      (entries r).restored = (entries r).attempt.handOver s supply
  /-- All ranks have been at the same number of barriers. -/
  together : ∀ r s, (entries r).barriers = (entries s).barriers
  /-- The session is closed. -/
  closed : ∀ r, (entries r).restored.host.services.phase = .idle

section Meetings

variable {attempts : Fin world → Attempt σ τ}

/-- When not all have read their streams, the ranks part after the first barrier. -/
theorem readSimulation_meet_decode (h : ¬ ∀ s, (attempts s).decoded.isOk = true) :
    Meet (fun r => (attempts r).opened.readSimulation (attempts r).input (attempts r).behaviors) 1
      fun r => (.error (blame .decode (attempts r).decoded), (attempts r).opened.voted) := by
  have hagree := agree_meet .decode (fun r => (attempts r).opened) fun r => (attempts r).decoded
  rw [decide_eq_false h] at hagree
  simp only [settle_false] at hagree
  show Meet _ (1 + 0) _
  refine hagree.bind ?_
  exact .done fun r => rfl

/-- Else they come to the second one with what they have put together. -/
theorem readSimulation_meet_connect {read : Fin world → Header × Staging Staged}
    (h : ∀ s, (attempts s).decoded = .ok (read s)) :
    Meet (fun r => (attempts r).opened.readSimulation (attempts r).input (attempts r).behaviors) 2
      fun r =>
        match settle .connect (.ok (decide (∀ s, (attempts s).connected.isOk = true)))
          (attempts r).connected with
        | .error e => (.error e, (attempts r).opened.voted.voted)
        | .ok (s, supply) => (.ok s, { (attempts r).opened.voted.voted with supply }) := by
  have hagree := agree_meet .decode (fun r => (attempts r).opened) fun r => (attempts r).decoded
  have hall : ∀ s, (attempts s).decoded.isOk = true := fun s => by rw [h s]; rfl
  have hread : ∀ r, settle .decode (.ok true) (attempts r).decoded = .ok (read r) :=
    fun r => settle_eq_ok.mpr ⟨rfl, h r⟩
  have hconnected : ∀ s, (attempts s).connected = connectStream (attempts s).behaviors (read s).1
      (read s).2 (attempts s).opened.voted.supply := by
    intro s
    rw [Attempt.connected, h s]
    rfl
  rw [decide_eq_true hall] at hagree
  simp only [hread] at hagree
  show Meet _ (1 + (1 + 0)) _
  refine hagree.bind ((agree_meet _ _ _).bind (.done fun r => ?_))
  simp only [hconnected]
  generalize settle Stage.connect _ _ = outcome
  rcases outcome with e | ⟨s, supply⟩ <;> rfl

theorem giveBack_closed (unpickle : Bytes → ControlM σ τ) (layer : σ)
    (read : Except CheckpointError Simulation × Host) :
    (giveBack unpickle layer read).host.services.phase = .idle := by
  obtain ⟨_ | s, p⟩ := read
  · rfl
  · rw [giveBack]
    cases unpickle s.control (p, layer) <;> rfl

/-- **A restore is a meeting**, of one barrier or of two. -/
theorem Attempt.program_meet (attempts : Fin world → Attempt σ τ)
    (hidle : ∀ r, (attempts r).host.services.phase = .idle) :
    ∃ barriers results, Meet (fun r => (attempts r).program) barriers results ∧
      InLockstep fun r => ⟨attempts r, results r, barriers⟩ := by
  have hprogram : (fun r => (attempts r).program) = fun r =>
      (attempts r).opened.readSimulation (attempts r).input (attempts r).behaviors >>= fun read =>
        .done (giveBack (attempts r).unpickle (attempts r).layer read) :=
    funext fun r => restoreProgram_of_enter (enter_eq_ok.mpr ⟨hidle r, rfl⟩) _ _ _ _
  rw [hprogram]
  by_cases hdecoded : ∀ s, (attempts s).decoded.isOk = true
  swap
  · refine ⟨1, _, (readSimulation_meet_decode hdecoded).map _, ?_⟩
    exact {
      decode := fun _ r => ⟨rfl, rfl⟩
      connect := fun hall => absurd (fun s => isOk_iff.mpr (hall s)) hdecoded
      unpickle := fun hall => absurd (fun s => isOk_iff.mpr (exists_decoded (hall s))) hdecoded
      together := fun _ _ => rfl
      closed := fun r => giveBack_closed _ _ _ }
  choose read hread using fun s => isOk_iff.mp (hdecoded s)
  have hmeet := readSimulation_meet_connect hread
  have hread_ne : ¬ ∃ s e, (attempts s).decoded = .error e :=
    fun ⟨s, he⟩ => exists_error_iff.mp he ⟨read s, hread s⟩
  by_cases hconnected : ∀ s, (attempts s).connected.isOk = true
  · choose built hbuilt using fun s => isOk_iff.mp (hconnected s)
    have hsettled : ∀ r, settle .connect (.ok true) (attempts r).connected = .ok (built r) :=
      fun r => settle_eq_ok.mpr ⟨rfl, hbuilt r⟩
    rw [decide_eq_true hconnected] at hmeet
    simp only [hsettled] at hmeet
    refine ⟨2, _, hmeet.map _, ?_⟩
    exact {
      decode := fun hfails => absurd hfails hread_ne
      connect := fun _ ⟨s, he⟩ => absurd ⟨built s, hbuilt s⟩ (exists_error_iff.mp he)
      unpickle := fun _ r => ⟨rfl, (built r).1, (built r).2, hbuilt r, rfl⟩
      together := fun _ _ => rfl
      closed := fun r => giveBack_closed _ _ _ }
  · rw [decide_eq_false hconnected] at hmeet
    simp only [settle_false] at hmeet
    refine ⟨2, _, hmeet.map _, ?_⟩
    exact {
      decode := fun hfails => absurd hfails hread_ne
      connect := fun _ _ r => ⟨rfl, rfl⟩
      unpickle := fun hall => absurd (fun s => isOk_iff.mpr (hall s)) hconnected
      together := fun _ _ => rfl
      closed := fun r => giveBack_closed _ _ _ }

end Meetings

/-! ### Many restores -/

/-- How a rank comes to its next restore: what it has done to its process and its control layer
since the last one, and what it is about to restore.  It leaves no session open. -/
structure Request (σ τ : Type) where
  prepare : Host × σ → Attempt σ τ
  idle : ∀ state, state.1.services.phase = .idle → (prepare state).host.services.phase = .idle

/-- One restore after the other. -/
def restoreEach : List (Request σ τ) → Host × σ → RankProgram (List (Entry σ τ))
  | [], _ => return []
  | request :: requests, state => do
    let attempt := request.prepare state
    let (restored, barriers) ← attempt.program.counted
    let entries ← restoreEach requests (restored.host, restored.layer)
    return ⟨attempt, restored, barriers⟩ :: entries

/-- What comes of restores that the ranks do one after the other, from given states on. -/
inductive Log : (Fin world → Host × σ) → List (Fin world → Request σ τ) →
    List (Fin world → Entry σ τ) → Prop where
  | nil (states : Fin world → Host × σ) : Log states [] []
  | cons {states : Fin world → Host × σ} {request : Fin world → Request σ τ}
      {requests : List (Fin world → Request σ τ)} {entries : Fin world → Entry σ τ}
      {log : List (Fin world → Entry σ τ)}
      (prepared : ∀ r, (entries r).attempt = (request r).prepare (states r))
      (lockstep : InLockstep entries)
      (rest : Log (fun r => ((entries r).restored.host, (entries r).restored.layer)) requests log) :
      Log states (request :: requests) (entries :: log)

/-- **One restore after the other is a meeting**, however many there are. -/
theorem restoreEach_meet (requests : List (Fin world → Request σ τ)) (states : Fin world → Host × σ)
    (hidle : ∀ r, (states r).1.services.phase = .idle) :
    ∃ rounds log, Meet (fun r => restoreEach (requests.map (· r)) (states r)) rounds
        (fun r => log.map (· r)) ∧ Log states requests log := by
  induction requests generalizing states with
  | nil => exact ⟨0, [], .done fun r => rfl, .nil states⟩
  | cons request requests ih =>
      obtain ⟨barriers, results, hmeet, hlockstep⟩ := Attempt.program_meet
        (fun r => (request r).prepare (states r)) fun r => (request r).idle (states r) (hidle r)
      obtain ⟨rounds, log, hrest, hlog⟩ := ih (fun r => ((results r).host, (results r).layer))
        hlockstep.closed
      exact ⟨barriers + rounds, _ :: log, hmeet.counted.bind (hrest.map _),
        .cons (fun _ => rfl) hlockstep hlog⟩

/-! ### From boot on -/

/-- A rank before it boots. -/
structure Plan (σ : Type) where
  config : ServiceConfig
  comm : Communicator
  files : FileSystem
  supply : InstanceSupply
  layer : σ

/-- The services of a rank that has booted. -/
def Plan.services (plan : Plan σ) : Services := ⟨plan.config, plan.comm, .idle, 1⟩

/-- The state of a rank that has booted with given services. -/
def Plan.state (plan : Plan σ) (services : Services) : Host × σ :=
  (⟨services, plan.files, plan.supply⟩, plan.layer)

/-- Boot, and restore as requested. -/
def Plan.program (plan : Plan σ) (requests : List (Request σ τ)) :
    RankProgram (Except BootError (List (Entry σ τ))) := do
  match ← Services.bootProgram plan.config plan.comm with
  | .error e => return .error e
  | .ok services => return .ok (← restoreEach requests (plan.state services))

/-- The error of a rank when not all have booted: its own, or that a peer has failed. -/
def bootBlame (config : ServiceConfig) : BootError :=
  match config.validate with
  | .error e => .config e
  | .ok () => .peerFailed

/-- **Booting is a meeting** of one barrier. -/
theorem bootProgram_meet (plans : Fin world → Plan σ) :
    Meet (fun r => Services.bootProgram (plans r).config (plans r).comm) 1 fun r =>
      if ∀ s, (plans s).config.validate.isOk = true then
        .ok (plans r).services
      else .error (bootBlame (plans r).config) := by
  refine .barrier (fun r => rfl) (.done fun r => ?_)
  by_cases h : ∀ s, (plans s).config.validate.isOk = true
  · obtain ⟨⟨⟩, hvalid⟩ := isOk_iff.mp (h r)
    rw [if_pos h, decide_eq_true h, hvalid]
    rfl
  · rw [if_neg h, decide_eq_false h, bootBlame]
    cases (plans r).config.validate <;> rfl

/-- What ranks can rely on that boot together and then restore together. -/
structure Course (plans : Fin world → Plan σ) (requests : List (Fin world → Request σ τ))
    (results : Fin world → Except BootError (List (Entry σ τ))) : Prop where
  /-- When some configuration is not valid, each rank with such a one fails with what is wrong with
  it, and every other one learns that a peer has failed. -/
  refused : (∃ s e, (plans s).config.validate = .error e) →
    ∀ r, results r = .error (bootBlame (plans r).config)
  /-- Else all boot, and the restores go on in lockstep. -/
  booted : (∀ s, (plans s).config.validate = .ok ()) →
    ∃ log, (∀ r, results r = .ok (log.map (· r))) ∧
      Log (fun r => (plans r).state (plans r).services) requests log

/-- **Ranks boot and restore in lockstep**, however many ranks and restores there are: whatever
connects them and whatever turns they take, each comes to the same results behind the same number of
barriers, and all fail when one does before the last barrier of a restore. -/
theorem restores_in_lockstep (plans : Fin world → Plan σ)
    (requests : List (Fin world → Request σ τ)) :
    ∃ rounds results, Concludes (fun r => (plans r).program (requests.map (· r))) rounds results ∧
      Course plans requests results := by
  have hboot := bootProgram_meet plans
  by_cases hvalid : ∀ s, (plans s).config.validate.isOk = true
  · simp only [if_pos hvalid] at hboot
    obtain ⟨rounds, log, hrestores, hlog⟩ := restoreEach_meet requests
      (fun r => (plans r).state (plans r).services) fun _ => rfl
    have hmeet : Meet (fun r => (plans r).program (requests.map (· r))) (1 + rounds)
        fun r => .ok (log.map (· r)) := hboot.bind (hrestores.map fun _ => Except.ok)
    refine ⟨_, _, hmeet.concludes, fun ⟨s, he⟩ => ?_, fun _ => ⟨log, fun _ => rfl, hlog⟩⟩
    exact absurd (isOk_iff.mp (hvalid s)) (exists_error_iff.mp he)
  · simp only [if_neg hvalid] at hboot
    have hmeet : Meet (fun r => (plans r).program (requests.map (· r))) (1 + 0)
        fun r => .error (bootBlame (plans r).config) := hboot.bind (.done fun _ => rfl)
    refine ⟨_, _, hmeet.concludes, fun _ _ => rfl, fun hall => ?_⟩
    exact absurd (fun s => isOk_iff.mpr ⟨(), hall s⟩) hvalid

/-! ### Coming to rest -/

theorem bootProgram_atMost (config : ServiceConfig) (comm : Communicator) :
    (Services.bootProgram config comm).AtMost 1 := by
  refine .barrier fun answer => ?_
  rcases answer with _ | _ | _ <;> cases config.validate <;> exact .done _

theorem agree_atMost {α : Type} (p : Host) (stage : Stage) (outcome : Except CheckpointError α) :
    (p.agree stage outcome).AtMost 1 := by
  refine .barrier fun answer => ?_
  rcases answer with _ | _ | _ <;> cases outcome <;> exact .done _

theorem readSimulation_atMost (p : Host) (input : Except CheckpointError Bytes)
    (behaviors : Behaviors) : (p.readSimulation input behaviors).AtMost 2 := by
  refine (p.agree_atMost ..).bind (l := 1) fun x => ?_
  rcases x with ⟨_ | _, p⟩
  · exact .done _
  · refine (p.agree_atMost ..).bind (l := 0) fun y => ?_
    rcases y with ⟨_ | _, p⟩ <;> exact .done _

theorem Attempt.program_atMost (a : Attempt σ τ) : a.program.AtMost 2 := by
  rw [program, restoreProgram]
  split
  · exact .done _
  · next p _ =>
    refine (p.readSimulation_atMost ..).bind (l := 0) fun x => ?_
    rcases x with ⟨_ | s, p⟩
    · exact .done _
    · dsimp only
      cases a.unpickle s.control (p, a.layer) <;> exact .done _

theorem restoreEach_atMost (requests : List (Request σ τ)) (state : Host × σ) :
    (restoreEach requests state).AtMost (2 * requests.length) := by
  induction requests generalizing state with
  | nil => exact .done _
  | cons request requests ih =>
      rw [List.length_cons, Nat.mul_succ, Nat.add_comm]
      exact (request.prepare state).program_atMost.counted.bind fun x =>
        (ih _).bind (l := 0) fun _ => .done _

theorem Plan.program_atMost (plan : Plan σ) (requests : List (Request σ τ)) :
    (plan.program requests).AtMost (1 + 2 * requests.length) := by
  refine (bootProgram_atMost ..).bind fun x => ?_
  cases x with
  | error _ => exact .done _
  | ok services => exact (restoreEach_atMost requests _).bind (l := 0) fun _ => .done _

/-- **Ranks that boot and restore come to rest**, whoever has gone away: after some laps nobody is
left who could go on. -/
theorem restores_settle (plans : Fin world → Plan σ) (requests : List (Fin world → Request σ τ))
    {n : Network (Except BootError (List (Entry σ τ)))}
    (hn : Network.Reached (List.ofFn fun r => (plans r).program (requests.map (· r))) n) :
    (n.follow (Network.turns world
      (Network.lapsFor world (1 + 2 * requests.length)))).Settled := by
  refine Network.settled_ofFn hn fun r => ?_
  have hprogram := (plans r).program_atMost (requests.map (· r))
  rwa [List.length_map] at hprogram

end Host

end ParticleSim
