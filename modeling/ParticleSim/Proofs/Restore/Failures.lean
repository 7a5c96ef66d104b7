import ParticleSim.Proofs.Checkpoint.Failures
import ParticleSim.Proofs.Host.Sessions

/-!
# Restores — How a restore fails

Each of the two passes of a restore, and the assembly that follows them, fails as a stream is
refused: the readers of the eight kinds of records find a record malformed
(`Staged.decoders_fail`), a reference leads nowhere or to the wrong kind of object
(`Staged.failsWith_connect`), and what is put together is malformed if it is not whole
(`Simulation.failsWith_assembleFrom`).

* `Host.reading_error`: a rank that hears its own votes reads a simulation or refuses the stream.
* `Host.restore_error_cases`: over such a connection a restore fails for one of five reasons, and it
  can be tried again only with another kind of file or another version of the format; both are told
  from the first five bytes.
-/

namespace ParticleSim

open ParticleSim.Stream (Malformed Corrupt DecodersFail)
open RecordReader

/-! ### Records -/

section Records

variable {α : Type}

theorem BoundaryParams.failsWith_readCounted {read : RecordReader α} (h : FailsWith Malformed read) :
    FailsWith Malformed (readCounted read) :=
  failsWith_u32.bind fun n => h.times n.toNat

theorem BoundaryParams.failsWith_read : FailsWith Malformed BoundaryParams.read := by
  refine failsWith_u8.bind fun tag => ?_
  split
  · exact failsWith_pure _
  · exact (failsWith_readCounted failsWith_f32).bind fun parallel =>
      (failsWith_readCounted failsWith_f32).bind fun perpendicular => failsWith_pure _
  · exact (failsWith_readCounted failsWith_u64).bind fun absorbed => failsWith_pure _
  · exact failsWith_fault _

theorem EmitterParams.failsWith_read : FailsWith Malformed EmitterParams.read := by
  refine failsWith_bytes.bind fun state => failsWith_u8.bind fun sized => ?_
  split
  · exact failsWith_pure _
  · exact failsWith_i32s.bind fun voxels => failsWith_pure _

theorem Family.failsWith_readParams (F : Family) : FailsWith Malformed F.readParams := by
  cases F with
  | boundary => exact BoundaryParams.failsWith_read
  | collision => exact failsWith_bytes
  | emitter => exact EmitterParams.failsWith_read

namespace Component

theorem failsWith_readKind (F : Family) : FailsWith Malformed (readKind F) := by
  refine failsWith_u32.bind fun code => ?_
  cases F.kindOf? code with
  | some kind => exact failsWith_pure kind
  | none => exact failsWith_fault _

theorem failsWith_readId : FailsWith Malformed readId := by
  refine failsWith_u8.bind fun flag => ?_
  split
  · exact failsWith_pure _
  · exact failsWith_i64.bind fun id => failsWith_pure _

theorem failsWith_readBehavior (behaviors : Behaviors) (F : Family) (name : String) :
    FailsWith Malformed (readBehavior behaviors F name) := by
  refine failsWith_symbol.bind fun symbol => ?_
  cases behaviors.bind F symbol with
  | ok behavior => exact failsWith_pure behavior
  | error symbol => exact failsWith_fault _

theorem failsWith_readLink (F : Family) (name : String) (linked : Bool) :
    FailsWith Malformed (readLink F name linked) := by
  refine failsWith_pointer.bind fun next => ?_
  cases linked <;> cases next <;> first | exact failsWith_pure _ | exact failsWith_fault _

theorem failsWith_read (behaviors : Behaviors) (F : Family) :
    FailsWith Malformed (read behaviors F) := by
  refine (failsWith_readKind F).bind fun kind => failsWith_readId.bind fun id => ?_
  refine failsWith_u8.bind fun linked => failsWith_text.bind fun name => ?_
  refine (failsWith_readBehavior behaviors F name).bind fun behavior => ?_
  refine (failsWith_readLink F name _).bind fun link => ?_
  exact F.failsWith_readParams.bind fun params => failsWith_object.bind fun object =>
    failsWith_pure _

end Component

theorem RosterRecord.failsWith_read (F : Family) : FailsWith Malformed (RosterRecord.read F) :=
  failsWith_u64.bind fun _ => failsWith_u64.bind fun _ => failsWith_pointer.bind fun _ =>
    failsWith_object.bind fun _ => failsWith_pure _

namespace SimulationRecord

theorem failsWith_readSpecies : FailsWith Malformed readSpecies :=
  failsWith_f32.bind fun _ => failsWith_f32.bind fun _ => failsWith_u64.bind fun _ =>
    failsWith_text.bind fun _ => failsWith_pure _

theorem failsWith_readField : FailsWith Malformed readField := by
  refine failsWith_u8.bind fun flag => ?_
  split
  · exact failsWith_pure _
  · exact failsWith_f32.bind fun damping => failsWith_pure _

theorem failsWith_readPart (part : SimulationPart) : FailsWith Malformed (readPart part) := by
  refine failsWith_pointer.bind fun target => ?_
  cases target with
  | some object => exact failsWith_pure object
  | none => exact failsWith_fault _

theorem failsWith_read : FailsWith Malformed read := by
  refine failsWith_u64.bind fun step => failsWith_u32.bind fun count => ?_
  refine (failsWith_readSpecies.times count.toNat).bind fun species => ?_
  refine failsWith_readField.bind fun field => ?_
  exact (failsWith_readPart _).bind fun control => (failsWith_readPart _).bind fun boundaries =>
    (failsWith_readPart _).bind fun collisions => (failsWith_readPart _).bind fun emitters =>
      failsWith_pure _

end SimulationRecord

end Records

namespace Staged

theorem familyDecoders_fail (behaviors : Behaviors) {decoders : Decoders Staged}
    (h : DecodersFail decoders) (F : Family) :
    DecodersFail (familyDecoders behaviors decoders F) :=
  (h.insert ((Component.failsWith_read behaviors F).map _)).insert
    ((RosterRecord.failsWith_read F).map _)

theorem componentDecoders_fail (behaviors : Behaviors) :
    DecodersFail (componentDecoders behaviors) := by
  have hfold (families : List Family) (decoders : Decoders Staged) (h : DecodersFail decoders) :
      DecodersFail (families.foldl (familyDecoders behaviors) decoders) := by
    induction families generalizing decoders with
    | nil => exact h
    | cons F families ih => exact ih _ (familyDecoders_fail behaviors h F)
  exact hfold Family.all .empty nofun

/-- **The records of a simulation's stream are malformed or they are read.** -/
theorem decoders_fail (behaviors : Behaviors) : DecodersFail (decoders behaviors) :=
  ((componentDecoders_fail behaviors).insert (failsWith_bytes.map _)).insert
    (SimulationRecord.failsWith_read.map _)

end Staged

/-! ### References -/

section References

variable {α β : Type} {staged : Staging α} {e : CheckpointError}

theorem Staging.resolve_error {view : α → Option β} {source target : ObjectId}
    (h : staged.resolve view source target = .error e) : e = .unresolved source target := by
  rw [resolve] at h
  split at h
  · cases h
  · exact (Except.error.inj h).symm

theorem Component.connect_error {F : Family} {c : Component F} {id : ObjectId}
    (h : c.connect id staged = .error e) : Corrupt e := by
  rw [connect] at h
  split at h
  · split at h
    · cases h
    · cases h
      trivial
  · cases h

namespace RosterRecord

variable {F : Family} {view : α → Option (Component F)} {id : ObjectId}

theorem follow_error {object : ObjectId} (h : follow view id staged object = .error e) :
    Corrupt e := by
  rcases except_bind_eq_error.mp h with hc | ⟨c, -, h⟩
  · rw [Staging.resolve_error hc]
    trivial
  · split at h <;> cases h
    trivial

theorem walk_error {r : RosterRecord F} {budget : Nat} {cursor : Option ObjectId}
    {joined : List ObjectId} (h : r.walk view id staged budget cursor joined = .error e) :
    Corrupt e := by
  induction budget generalizing cursor joined with
  | zero =>
      cases cursor <;> cases h
      trivial
  | succ budget ih =>
      cases cursor with
      | none => cases h
      | some object =>
          rcases except_bind_eq_error.mp h with hf | ⟨next, -, h⟩
          · exact follow_error hf
          · exact ih h

theorem failsWith_connect : FailsWith Corrupt (connect view id staged) := by
  refine failsWith_get.bind fun r => ?_
  cases hw : r.walk view id staged r.count.toNat r.head [] with
  | error e => exact failsWith_throw (walk_error hw)
  | ok members =>
      simp only
      split
      · exact failsWith_set _
      · exact failsWith_throw trivial

end RosterRecord

end References

namespace Staged

theorem connectSimulation_error {r : SimulationRecord} {id : ObjectId} {staged : Staging Staged}
    {e : CheckpointError} (h : connectSimulation r id staged = .error e) : Corrupt e := by
  have hresolve {β : Type} {view : Staged → Option β} {target : ObjectId}
      (h : (discard (staged.resolve view id target) : Except CheckpointError PUnit) = .error e) :
      Corrupt e := by
    cases hview : staged.resolve view id target with
    | ok b =>
        rw [hview] at h
        cases h
    | error e' =>
        rw [hview] at h
        cases h
        rw [Staging.resolve_error hview]
        trivial
  rcases except_bind_eq_error.mp h with hcontrol | ⟨_, -, h⟩
  · exact hresolve hcontrol
  rcases except_bind_eq_error.mp h with hboundaries | ⟨_, -, h⟩
  · exact hresolve hboundaries
  rcases except_bind_eq_error.mp h with hcollisions | ⟨_, -, hemitters⟩
  · exact hresolve hcollisions
  · exact hresolve hemitters

/-- **A staged object is connected, or the stream is corrupt.** -/
theorem failsWith_connect (id : ObjectId) (staged : Staging Staged) :
    FailsWith Corrupt (connect id staged) := by
  refine failsWith_get.bind fun object => ?_
  cases object with
  | component F c => exact failsWith_ofExcept fun e h => Component.connect_error h
  | roster F r =>
      simp only
      split
      · exact failsWith_set _
      · next e r' he =>
        exact (failsWith_set _).bind fun _ =>
          failsWith_throw (RosterRecord.failsWith_connect _ _ _ he)
  | control state => exact failsWith_pure _
  | simulation r => exact failsWith_ofExcept fun e h => connectSimulation_error h

end Staged

namespace Staging

variable {α β : Type}

theorem failsWith_connectEach {kind : CheckpointError → Prop} {connect : Connect α}
    (h : ∀ id staged, FailsWith kind (connect id staged)) (ids : List ObjectId) :
    FailsWith kind (connectEach connect ids) := by
  induction ids with
  | nil => exact failsWith_pure _
  | cons id ids ih =>
      refine failsWith_get.bind fun s => ?_
      cases s.object? id with
      | none => exact ih
      | some object =>
          simp only
          split
          · exact (failsWith_set _).bind fun _ => ih
          · next e object' he => exact (failsWith_set _).bind fun _ => failsWith_throw (h _ _ _ _ _ he)

/-! ### Assembly -/

theorem failsWith_take (view : α → Option β) (typeName : String) (id : ObjectId) :
    FailsWith Malformed (take view typeName id) := by
  refine failsWith_get.bind fun s => ?_
  cases s.slots.find? id with
  | none => exact failsWith_throw trivial
  | some slot =>
      refine (failsWith_set _).bind fun _ => ?_
      cases slot.object with
      | none => exact failsWith_throw trivial
      | some object =>
          simp only
          cases view object with
          | none => exact failsWith_throw trivial
          | some b => exact failsWith_pure b

end Staging

theorem RosterRecord.failsWith_moveMembers {F : Family} {α : Type}
    (view : α → Option (Component F)) (objects : List ObjectId) (l : Roster F) :
    FailsWith Malformed (moveMembers view objects l) := by
  induction objects generalizing l with
  | nil => exact failsWith_pure l
  | cons object objects ih =>
      refine (Staging.failsWith_take view F.tag object).bind fun c => ?_
      simp only
      split
      · exact ih _
      · exact failsWith_throw trivial

namespace Simulation

theorem failsWith_takeList (F : Family) (object : ObjectId) (place : ListInstance) :
    FailsWith Malformed (takeList F object place) :=
  (Staging.failsWith_take _ _ _).bind fun _ => RosterRecord.failsWith_moveMembers _ _ _

/-- **What is connected is put together, or the stream is malformed.** -/
theorem failsWith_assembleFrom (behaviors : Behaviors) (cursor : UInt64)
    (place₁ place₂ place₃ : ListInstance) :
    FailsWith Malformed (assembleFrom behaviors cursor place₁ place₂ place₃) := by
  refine failsWith_get.bind fun staged => ?_
  cases staged.findByTag? simulationTag with
  | none => exact failsWith_throw trivial
  | some object =>
      refine (Staging.failsWith_take _ _ _).bind fun r => ?_
      refine (Staging.failsWith_take _ _ _).bind fun control => ?_
      refine (failsWith_takeList _ _ _).bind fun boundaries => ?_
      refine (failsWith_takeList _ _ _).bind fun collisions => ?_
      refine (failsWith_takeList _ _ _).bind fun emitters => ?_
      refine failsWith_get.bind fun left => ?_
      exact FailsWith.check trivial (failsWith_pure _)

theorem assemble_error {behaviors : Behaviors} {cursor : UInt64} {staged : Staging Staged}
    {supply : InstanceSupply} {e : CheckpointError}
    (h : assemble behaviors cursor staged supply = .error e) : Malformed e := by
  rw [assemble] at h
  simp only at h
  split at h
  · cases h
  · next he =>
    cases h
    exact failsWith_assembleFrom _ _ _ _ _ _ _ _ he

end Simulation

namespace Host

variable {σ τ : Type} {p : Host} {behaviors : Behaviors} {input : Bytes} {e : CheckpointError}

/-! ### Restores -/

theorem connectStream_error {h : Header} {staged : Staging Staged} {supply : InstanceSupply}
    (he : connectStream behaviors h staged supply = .error e) : Corrupt e := by
  rw [connectStream] at he
  split at he
  · next hc =>
    cases he
    exact Staging.failsWith_connectEach Staged.failsWith_connect staged.ids _ _ _ hc
  · exact (Simulation.assemble_error he).corrupt

/-- A stream of another rank is malformed, too. -/
theorem decodeStream_error {comm : Communicator} (h : decodeStream comm behaviors input = .error e) :
    (e = .invalidMagic ∧ 4 ≤ input.length ∧ input.take 4 ≠ Stream.magic) ∨
      (∃ v later, e = .unsupportedVersion v ∧ input = Stream.magic ++ v :: later ∧
        v ≠ Stream.version) ∨
      Corrupt e := by
  rw [decodeStream] at h
  split at h
  · next hr =>
    cases h
    exact Stream.read_error (Staged.decoders_fail behaviors) hr
  · split at h <;> cases h
    exact .inr (.inr trivial)

theorem decodeStream_of_magic {comm : Communicator} (hlength : 4 ≤ input.length)
    (hmagic : input.take 4 ≠ Stream.magic) :
    decodeStream comm behaviors input = .error .invalidMagic := by
  rw [decodeStream, Stream.read_of_magic hlength hmagic]

theorem decodeStream_of_version {comm : Communicator} {v : UInt8} (hversion : v ≠ Stream.version)
    (later : Bytes) :
    decodeStream comm behaviors (Stream.magic ++ v :: later) = .error (.unsupportedVersion v) := by
  rw [decodeStream, Stream.read_of_version hversion later]

theorem settle_own {α : Type} (stage : Stage) (outcome : Except CheckpointError α) :
    settle stage (.ok outcome.isOk) outcome = outcome := by
  cases outcome <;> rfl

/-- **A rank that hears its own votes reads alone**: it goes through the two passes, and nothing
else is in its way. -/
theorem reading_own {answer : Nat → Bool → Except CommError Bool}
    (own : ∀ round vote, answer round vote = .ok vote) (n : Nat) :
    (p.reading (.ok input) behaviors answer n).1 =
      (decodeStream p.services.comm behaviors input).bind fun (h, staged) =>
        (connectStream behaviors h staged p.supply).map Prod.fst := by
  rw [reading]
  simp only [own, settle_own, Except.bind]
  cases decodeStream p.services.comm behaviors input with
  | error e => rfl
  | ok a =>
      simp only
      cases connectStream behaviors a.1 a.2 p.supply <;> rfl

theorem giveBack_eq_error {unpickle : Bytes → ControlM σ τ} {layer : σ}
    (accepts : ∀ control state, ∃ a state', unpickle control state = .ok a state')
    {read : Except CheckpointError Simulation × Host} :
    (giveBack unpickle layer read).result = .error e ↔ read.1 = .error e := by
  obtain ⟨_ | s, q⟩ := read
  · simp [giveBack]
  · obtain ⟨a, state, h⟩ := accepts s.control (q, layer)
    simp [giveBack, h]

section Alone

variable {unpickle : Bytes → ControlM σ τ} {layer : σ} (idle : p.services.phase = .idle)
  (own : ∀ round vote, p.services.comm.answer round vote = .ok vote)
  (accepts : ∀ control state, ∃ a state', unpickle control state = .ok a state')

include idle own accepts

/-- A restore of an idle rank that hears its own votes, for a control layer that takes any state,
fails as the two passes do. -/
theorem restore_eq_error :
    (p.restore (.ok input) behaviors unpickle layer).result = .error e ↔
      decodeStream p.services.comm behaviors input = .error e ∨
        ∃ h staged, decodeStream p.services.comm behaviors input = .ok (h, staged) ∧
          connectStream behaviors h staged p.supply = .error e := by
  rw [restore_eq, enter_eq_ok.mpr ⟨idle, rfl⟩]
  simp only [giveBack_eq_error accepts, reading_own own]
  change (decodeStream p.services.comm behaviors input).bind (fun (h, staged) =>
    (connectStream behaviors h staged p.supply).map Prod.fst) = .error e ↔ _
  cases decodeStream p.services.comm behaviors input with
  | error e' => simp [Except.bind]
  | ok a =>
      obtain ⟨h, staged⟩ := a
      cases hc : connectStream behaviors h staged p.supply <;>
        simp [Except.bind, Except.map, hc]

/-- The input is another kind of file, or of another version, or it is corrupt. -/
theorem restore_error (h : (p.restore (.ok input) behaviors unpickle layer).result = .error e) :
    (e = .invalidMagic ∧ 4 ≤ input.length ∧ input.take 4 ≠ Stream.magic) ∨
      (∃ found later, e = .unsupportedVersion found ∧ input = Stream.magic ++ found :: later ∧
        found ≠ Stream.version) ∨
      Corrupt e := by
  rcases (restore_eq_error idle own accepts).mp h with hd | ⟨header, staged, -, hc⟩
  · exact decodeStream_error hd
  · exact .inr (.inr (connectStream_error hc))

theorem restore_of_magic (hlength : 4 ≤ input.length) (hmagic : input.take 4 ≠ Stream.magic) :
    (p.restore (.ok input) behaviors unpickle layer).result = .error .invalidMagic :=
  (restore_eq_error idle own accepts).mpr (.inl (decodeStream_of_magic hlength hmagic))

theorem restore_of_version {found : UInt8} (hversion : found ≠ Stream.version) (later : Bytes) :
    (p.restore (.ok (Stream.magic ++ found :: later)) behaviors unpickle layer).result =
      .error (.unsupportedVersion found) :=
  (restore_eq_error idle own accepts).mpr (.inl (decodeStream_of_version hversion later))

end Alone

/-- **How a restore fails.**  On an idle rank that hears its own votes, with a control layer that
takes its state back, a restore succeeds or fails with one of five errors.  It finds another kind of
file, or another version of the format, exactly if the first bytes say so; and these are the failures
after which it may be tried again. -/
theorem restore_error_cases {unpickle : Bytes → ControlM σ τ} {layer : σ}
    {result : Except CheckpointError (Simulation × τ)} (idle : p.services.phase = .idle)
    (own : ∀ round vote, p.services.comm.answer round vote = .ok vote)
    (accepts : ∀ control state, ∃ a state', unpickle control state = .ok a state')
    (restored : (p.restore (.ok input) behaviors unpickle layer).result = result) :
    (∀ e, result = .error e →
      e = .invalidMagic ∨ (∃ found, e = .unsupportedVersion found) ∨
        (∃ fault, e = .streamFormat fault) ∨ (∃ tag, e = .unknownTypeTag tag) ∨
        ∃ source target, e = .unresolved source target) ∧
    (result = .error .invalidMagic ↔ 4 ≤ input.length ∧ input.take 4 ≠ Stream.magic) ∧
    (∀ found, result = .error (.unsupportedVersion found) ↔
      found ≠ Stream.version ∧ ∃ later, input = Stream.magic ++ found :: later) ∧
    ((∃ e, result = .error e ∧ e.fatal = false) ↔
      (4 ≤ input.length ∧ input.take 4 ≠ Stream.magic) ∨
        ∃ found later, input = Stream.magic ++ found :: later ∧ found ≠ Stream.version) := by
  subst restored
  refine ⟨fun e he => ?_, ⟨fun he => ?_, fun h => restore_of_magic idle own accepts h.1 h.2⟩,
    fun found => ⟨fun he => ?_, ?_⟩, ⟨?_, ?_⟩⟩
  · rcases restore_error idle own accepts he with ⟨rfl, -⟩ | ⟨found, _, rfl, -⟩ | hcorrupt
    · exact .inl rfl
    · exact .inr (.inl ⟨found, rfl⟩)
    · cases e with
      | streamFormat fault => exact .inr (.inr (.inl ⟨fault, rfl⟩))
      | unknownTypeTag tag => exact .inr (.inr (.inr (.inl ⟨tag, rfl⟩)))
      | unresolved source target => exact .inr (.inr (.inr (.inr ⟨source, target, rfl⟩)))
      | _ => cases hcorrupt
  · rcases restore_error idle own accepts he with ⟨-, h⟩ | ⟨_, _, h, -⟩ | h
    · exact h
    · cases h
    · cases h
  · rcases restore_error idle own accepts he with ⟨h, -⟩ | ⟨_, later, ⟨⟩, hinput, hne⟩ | h
    · cases h
    · exact ⟨hne, later, hinput⟩
    · cases h
  · rintro ⟨hne, later, rfl⟩
    exact restore_of_version idle own accepts hne later
  · rintro ⟨e, he, hfatal⟩
    rcases restore_error idle own accepts he with ⟨-, h⟩ | ⟨found, later, -, h⟩ | hcorrupt
    · exact .inl h
    · exact .inr ⟨found, later, h⟩
    · rw [hcorrupt.fatal] at hfatal
      cases hfatal
  · rintro (⟨hlength, hne⟩ | ⟨found, later, rfl, hne⟩)
    · exact ⟨_, restore_of_magic idle own accepts hlength hne, rfl⟩
    · exact ⟨_, restore_of_version idle own accepts hne later, rfl⟩

/-- The first word cut short, a version to come, and a picture. -/
theorem restore_error_cases_alone :
    let p : Host := ⟨⟨{}, .alone, .idle, 1⟩, .empty, ⟨3⟩⟩
    let restored (input : Bytes) :=
      (p.restore (.ok input) .builtin (fun control => (pure control : ControlM Unit Bytes)) ()).result
    (∃ e, restored [0x50, 0x4C, 0x43] = .error e ∧ e.fatal = true) ∧
      restored [0x50, 0x4C, 0x43, 0x4B, 2, 0, 0] = .error (.unsupportedVersion 2) ∧
      restored [0x89, 0x50, 0x4E, 0x47, 0x0D] = .error .invalidMagic := by
  intro p restored
  have own : ∀ round vote, p.services.comm.answer round vote = .ok vote := fun _ _ => rfl
  have accepts : ∀ control state, ∃ a state',
      (pure control : ControlM Unit Bytes) state = .ok a state' :=
    fun control state => ⟨control, state, rfl⟩
  have hcases (input : Bytes) :=
    @restore_error_cases Unit Bytes p .builtin input _ () _ rfl own accepts rfl
  obtain ⟨-, -, hversion, -⟩ := hcases [0x50, 0x4C, 0x43, 0x4B, 2, 0, 0]
  obtain ⟨-, hmagic, -, -⟩ := hcases [0x89, 0x50, 0x4E, 0x47, 0x0D]
  exact ⟨⟨_, rfl, rfl⟩, (hversion 2).mpr ⟨by decide, _, rfl⟩, hmagic.mpr ⟨by decide, by decide⟩⟩

end Host

end ParticleSim
