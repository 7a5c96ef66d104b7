import ParticleSim.Proofs.Checkpoint.Cuts

/-!
# Checkpoint — How a stream is refused

`FailsWith kind m` says that `m` has no failures but those of one kind, whatever it is run on.  It is
a judgement on programs, with a rule for each way to put them together (`FailsWith.bind`,
`FailsWith.check`, `FailsWith.times`), so that a reader is judged by what it is made of.

* A record is refused as malformed: readers of its two sections have no other failures
  (`RecordReader.failsWith_ofBlob`, `RecordReader.failsWith_ofFields`).
* Behind the header a stream is refused as corrupt (`Stream.Corrupt`), and this is fatal
  (`Stream.Corrupt.fatal`).
* `Stream.read_error`: a stream that is refused begins with another word, or is of another version,
  or is corrupt.  The first two are told from its first bytes, whatever follows
  (`Stream.read_of_magic`, `Stream.read_of_version`).
-/

namespace ParticleSim

/-- Whatever it is run on, the computation fails with errors of the given kind only. -/
def FailsWith {ε σ α : Type} (kind : ε → Prop) (m : EStateM ε σ α) : Prop :=
  ∀ s e s', m s = .error e s' → kind e

section Rules

variable {ε σ α β : Type} {kind kind' : ε → Prop}

/-! ### Rules -/

theorem bind_eq_error {m : EStateM ε σ α} {next : α → EStateM ε σ β} {s s' : σ} {e : ε} :
    (m >>= next) s = .error e s' ↔
      m s = .error e s' ∨ ∃ a s₁, m s = .ok a s₁ ∧ next a s₁ = .error e s' := by
  cases hm : m s with
  | ok a s₁ => simp [bind_of_ok hm]
  | error e₁ s₁ => simp [bind_of_error hm]

theorem except_bind_eq_error {x : Except ε α} {f : α → Except ε β} {e : ε} :
    (x >>= f) = .error e ↔ x = .error e ∨ ∃ a, x = .ok a ∧ f a = .error e := by
  cases x with
  | ok a => simp [bind, Except.bind]
  | error e₁ => simp [bind, Except.bind]

theorem check_eq_error {p : Prop} [Decidable p] {e e' : ε} {next : Unit → EStateM ε σ β} {s s' : σ} :
    (if p then next () else throw e >>= next) s = .error e' s' ↔
      (p ∧ next () s = .error e' s') ∨ (¬ p ∧ e = e' ∧ s = s') := by
  by_cases hp : p
  · simp [hp]
  · rw [if_neg hp, bind_of_error (show (throw e : EStateM ε σ Unit) s = .error e s from rfl)]
    simp [hp]

theorem failsWith_pure (a : α) : FailsWith kind (pure a : EStateM ε σ α) := nofun

theorem failsWith_get : FailsWith kind (get : EStateM ε σ σ) := nofun

theorem failsWith_set (s : σ) : FailsWith kind (set s : EStateM ε σ PUnit) := nofun

theorem failsWith_throw {e : ε} (h : kind e) : FailsWith kind (throw e : EStateM ε σ α) := by
  rintro s _ _ ⟨⟩
  exact h

theorem failsWith_ofExcept {x : Except ε α} (h : ∀ e, x = .error e → kind e) :
    FailsWith kind (MonadExcept.ofExcept x : EStateM ε σ α) := by
  cases x with
  | ok a => exact failsWith_pure a
  | error e => exact failsWith_throw (h e rfl)

variable {m : EStateM ε σ α}

theorem FailsWith.mono (h : FailsWith kind m) (hk : ∀ e, kind e → kind' e) : FailsWith kind' m :=
  fun s e s' he => hk e (h s e s' he)

theorem FailsWith.bind {next : α → EStateM ε σ β} (h : FailsWith kind m)
    (hnext : ∀ a, FailsWith kind (next a)) : FailsWith kind (m >>= next) := by
  intro s e s' he
  rcases bind_eq_error.mp he with he | ⟨a, s₁, -, he⟩
  · exact h s e s' he
  · exact hnext a s₁ e s' he

theorem FailsWith.map (h : FailsWith kind m) (f : α → β) : FailsWith kind (f <$> m) := by
  rw [map_eq_pure_bind]
  exact h.bind fun a => failsWith_pure (f a)

/-- A check, and what follows it. -/
theorem FailsWith.check {p : Prop} [Decidable p] {e : ε} {next : Unit → EStateM ε σ β}
    (he : kind e) (h : FailsWith kind (next ())) :
    FailsWith kind (if p then next () else throw e >>= next) := by
  split
  · exact h
  · exact (failsWith_throw he).bind fun _ => h

theorem FailsWith.times (h : FailsWith kind m) (n : Nat) :
    FailsWith kind (RecordReader.times n m) := by
  induction n with
  | zero => exact failsWith_pure []
  | succ n ih => exact h.bind fun a => ih.bind fun as => failsWith_pure (a :: as)

end Rules

namespace RecordReader

open ParticleSim.Stream (Malformed)

variable {α : Type}

/-! ### Records -/

theorem failsWith_fault (f : FormatFault) : FailsWith Malformed (fault f : RecordReader α) :=
  failsWith_throw trivial

/-- Whatever is wrong with the blob, the record is malformed. -/
theorem failsWith_ofBlob (read : ByteReader FormatFault α) : FailsWith Malformed (ofBlob read) := by
  intro r e r' h
  rw [ofBlob] at h
  split at h
  · cases h
  · cases h
    trivial

theorem failsWith_ofFields (read : ByteReader FormatFault α) :
    FailsWith Malformed (ofFields read) := by
  intro r e r' h
  rw [ofFields] at h
  split at h
  · cases h
  · cases h
    trivial

theorem failsWith_u8 : FailsWith Malformed u8 := failsWith_ofBlob _

theorem failsWith_u32 : FailsWith Malformed u32 := failsWith_ofBlob _

theorem failsWith_u64 : FailsWith Malformed u64 := failsWith_ofBlob _

theorem failsWith_i64 : FailsWith Malformed i64 := failsWith_u64.bind fun _ => failsWith_pure _

theorem failsWith_f32 : FailsWith Malformed f32 := failsWith_u32.bind fun _ => failsWith_pure _

theorem failsWith_bytes : FailsWith Malformed bytes := failsWith_ofFields _

theorem failsWith_text : FailsWith Malformed text := failsWith_ofFields _

theorem failsWith_i32s : FailsWith Malformed i32s := failsWith_ofFields _

theorem failsWith_object : FailsWith Malformed object := failsWith_get.bind fun _ => failsWith_pure _

theorem failsWith_symbol : FailsWith Malformed symbol := by
  refine (failsWith_ofFields _).bind fun present => ?_
  cases present with
  | true => exact failsWith_text.bind fun _ => failsWith_pure _
  | false => exact failsWith_pure _

theorem failsWith_pointer : FailsWith Malformed pointer := by
  refine (failsWith_ofFields _).bind fun present => ?_
  cases present with
  | true => exact (failsWith_ofFields _).bind fun _ => failsWith_pure _
  | false => exact failsWith_pure _

theorem failsWith_finish : FailsWith Malformed finish := by
  refine failsWith_get.bind fun r => ?_
  split
  · exact failsWith_pure ()
  · exact failsWith_fault _

end RecordReader

namespace Stream

/-- The errors that say that the input is not a stream that was written: not of the form of one, with
a tag that nobody reads, or with a reference to nothing of its kind. -/
def Corrupt : CheckpointError → Prop
  | .streamFormat _ | .unknownTypeTag _ | .unresolved .. => True
  | _ => False

/-- Who finds a stream corrupt is not to try again. -/
theorem Corrupt.fatal {e : CheckpointError} (h : Corrupt e) : e.fatal = true := by
  cases e <;> first | rfl | cases h

theorem Malformed.corrupt {e : CheckpointError} (h : Malformed e) : Corrupt e := by
  obtain ⟨fault, rfl⟩ := h.exists_fault
  trivial

/-! ### Streams -/

/-- The decoders find records malformed, and nothing else. -/
def DecodersFail {α : Type} (decoders : Decoders α) : Prop :=
  ∀ tag decode, decoders.find? tag = some decode → FailsWith Malformed decode

theorem DecodersFail.insert {α : Type} {decoders : Decoders α} {tag : String}
    {decode : RecordReader α} (h : DecodersFail decoders) (hd : FailsWith Malformed decode) :
    DecodersFail (decoders.insert tag decode) := by
  intro tag' decode' h'
  rw [OrderedMap.find?_insert] at h'
  split at h'
  · cases h'
    exact hd
  · exact h tag' decode' h'

theorem failsWith_lift {β : Type} (read : ByteReader FormatFault β) :
    FailsWith Malformed (Reader.lift read) := by
  intro input e rest h
  rw [Reader.lift] at h
  split at h
  · cases h
  · cases h
    trivial

section Records

variable {α : Type} {decoders : Decoders α}

theorem decodeRecord_error (hd : DecodersFail decoders) {id : ObjectId} {tag : String} {r : Record}
    {e : CheckpointError} (h : decodeRecord decoders id tag r = .error e) : Corrupt e := by
  rw [decodeRecord] at h
  split at h
  · cases h
    trivial
  · next decode hdecode =>
    have hreader : FailsWith Malformed
        (do let a ← decode; RecordReader.finish; return a : RecordReader α) :=
      (hd tag decode hdecode).bind fun a =>
        RecordReader.failsWith_finish.bind fun _ => failsWith_pure a
    split at h
    · cases h
    · next he =>
      cases h
      exact (hreader _ _ _ he).corrupt

theorem insert_error {staged : Staging α} {id : ObjectId} {tag : String} {object : α}
    {e : CheckpointError} (h : staged.insert id tag object = .error e) : Malformed e := by
  rw [Staging.insert] at h
  split at h
  · cases h
    trivial
  · cases h

theorem failsWith_readRecord (hd : DecodersFail decoders) (cursor : UInt64) (staged : Staging α) :
    FailsWith Corrupt (readRecord decoders cursor staged) := by
  have lift {β : Type} (read : ByteReader FormatFault β) : FailsWith Corrupt (Reader.lift read) :=
    (failsWith_lift read).mono fun _ => Malformed.corrupt
  refine (lift _).bind fun id => FailsWith.check trivial ?_
  refine (lift _).bind fun tag => ?_
  refine (lift _).bind fun blob => ?_
  refine (lift _).bind fun fields => ?_
  cases hobject : decodeRecord decoders ⟨id⟩ tag ⟨blob, fields⟩ with
  | error e => exact failsWith_throw (decodeRecord_error hd hobject)
  | ok object =>
      simp only
      cases hinsert : staged.insert ⟨id⟩ tag object with
      | error e => exact failsWith_throw (insert_error hinsert).corrupt
      | ok staged' => exact failsWith_pure staged'

theorem failsWith_readRecords (hd : DecodersFail decoders) (cursor : UInt64) (count : Nat)
    (staged : Staging α) : FailsWith Corrupt (readRecords decoders cursor count staged) := by
  induction count generalizing staged with
  | zero => exact failsWith_pure staged
  | succ count ih => exact (failsWith_readRecord hd cursor staged).bind fun _ => ih _

end Records

theorem failsWith_readTrailer (count : UInt64) : FailsWith Malformed (readTrailer count) := by
  refine (failsWith_lift _).bind fun marker => FailsWith.check trivial ?_
  refine (failsWith_lift _).bind fun found => ?_
  split
  · exact failsWith_pure ()
  · exact failsWith_throw trivial

/-! ### The first bytes -/

/-- What begins with another word is refused as soon as the word is read. -/
theorem readHeader_of_magic {input : Bytes} (hlength : 4 ≤ input.length)
    (hmagic : input.take 4 ≠ magic) : readHeader input = .error .invalidMagic (input.drop 4) := by
  have hstart : Reader.lift (ByteReader.exactly 4) input = .ok (input.take 4) (input.drop 4) :=
    lift_eq_ok.mpr (ByteReader.exactly_eq_ok.mpr
      ⟨List.length_take_of_le hlength, (List.take_append_drop 4 input).symm⟩)
  exact (bind_of_ok hstart _).trans (check_eq_error.mpr (.inr ⟨hmagic, rfl, rfl⟩))

/-- What is of another version is refused as soon as the version is read. -/
theorem readHeader_of_version {v : UInt8} (hversion : v ≠ version) (rest : Bytes) :
    readHeader (magic ++ v :: rest) = .error (.unsupportedVersion v) rest := by
  have hstart : Reader.lift (ByteReader.exactly 4) (magic ++ v :: rest) = .ok magic (v :: rest) :=
    lift_eq_ok.mpr (ByteReader.exactly_eq_ok.mpr ⟨rfl, rfl⟩)
  have hfound : Reader.lift ByteReader.u8 (v :: rest) = .ok v rest :=
    lift_eq_ok.mpr (ByteReader.u8_eq_ok.mpr rfl)
  refine ((bind_of_ok hstart _).trans (congrFun (if_pos rfl) _)).trans ?_
  exact (bind_of_ok hfound _).trans (check_eq_error.mpr (.inr ⟨hversion, rfl, rfl⟩))

/-- A header is refused for its first word or its version, or it is malformed. -/
theorem readHeader_error {input rest : Bytes} {e : CheckpointError}
    (h : readHeader input = .error e rest) :
    (e = .invalidMagic ∧ 4 ≤ input.length ∧ input.take 4 ≠ magic) ∨
      (∃ v later, e = .unsupportedVersion v ∧ input = magic ++ v :: later ∧ v ≠ version) ∨
      Malformed e := by
  rcases bind_eq_error.mp h with h | ⟨start, input₁, hstart, h⟩
  · exact .inr (.inr (failsWith_lift _ _ _ _ h))
  obtain ⟨hlength, hinput⟩ := ByteReader.exactly_eq_ok.mp (lift_eq_ok.mp hstart)
  rcases check_eq_error.mp h with ⟨rfl, h⟩ | ⟨hmagic, rfl, -⟩
  · rcases bind_eq_error.mp h with h | ⟨v, later, hv, h⟩
    · exact .inr (.inr (failsWith_lift _ _ _ _ h))
    have hv := ByteReader.u8_eq_ok.mp (lift_eq_ok.mp hv)
    rcases check_eq_error.mp h with ⟨-, h⟩ | ⟨hversion, rfl, -⟩
    · refine .inr (.inr ?_)
      -- behind the version nothing but words and text is read
      have hfields : FailsWith Malformed _ :=
        (failsWith_lift ByteReader.text).bind fun producer =>
          (failsWith_lift ByteReader.u32).bind fun rank =>
            (failsWith_lift ByteReader.u32).bind fun world =>
              (failsWith_lift ByteReader.u64).bind fun cursor =>
                (failsWith_lift ByteReader.u64).bind fun count =>
                  failsWith_pure (⟨⟨producer, rank, world⟩, cursor, count⟩ : Header)
      exact hfields _ _ _ h
    · exact .inr (.inl ⟨v, later, rfl, by rw [hinput, hv], hversion⟩)
  · refine .inl ⟨rfl, ?_, ?_⟩
    · rw [hinput, List.length_append]
      omega
    · rwa [hinput, List.take_left' hlength]

section Reading

variable {α : Type} {decoders : Decoders α} {input rest : Bytes}

theorem read_of_magic (hlength : 4 ≤ input.length) (hmagic : input.take 4 ≠ magic) :
    read decoders input = .error .invalidMagic (input.drop 4) :=
  bind_of_error (readHeader_of_magic hlength hmagic) _

theorem read_of_version {v : UInt8} (hversion : v ≠ version) (rest : Bytes) :
    read decoders (magic ++ v :: rest) = .error (.unsupportedVersion v) rest :=
  bind_of_error (readHeader_of_version hversion rest) _

/-- **How a stream is refused**: for its first word, for its version, or as corrupt. -/
theorem read_error (hd : DecodersFail decoders) {e : CheckpointError}
    (h : read decoders input = .error e rest) :
    (e = .invalidMagic ∧ 4 ≤ input.length ∧ input.take 4 ≠ magic) ∨
      (∃ v later, e = .unsupportedVersion v ∧ input = magic ++ v :: later ∧ v ≠ version) ∨
      Corrupt e := by
  rcases bind_eq_error.mp h with h | ⟨header, input₁, -, h⟩
  · exact (readHeader_error h).imp_right (Or.imp_right Malformed.corrupt)
  · refine .inr (.inr ?_)
    have hrecords : FailsWith Corrupt _ :=
      (failsWith_readRecords hd header.cursor header.count.toNat .empty).bind fun staged =>
        ((failsWith_readTrailer header.count).mono fun _ => Malformed.corrupt).bind fun _ =>
          failsWith_pure (header, staged)
    exact hrecords _ _ _ h

end Reading

end Stream

end ParticleSim
