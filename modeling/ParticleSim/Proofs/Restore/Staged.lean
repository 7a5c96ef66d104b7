import ParticleSim.Simulation.Record
import ParticleSim.Proofs.Checkpoint.Streams
import ParticleSim.Proofs.Component.Records

/-!
# Restores — Staged objects

A stream of a simulation is made of components, lists, a control state and simulations (`Staged`).
Each has the data that it would be written as (`Staged.data`) under a tag of its own (`Staged.tag`),
and a record is decoded by what its tag says (`Staged.decodeRecord_eq_ok`).

* `Staged.decodeRecord_ofData`: what is decoded from a part's own data is that part with its
  behavior looked up again (`Staged.Rebound`).
* `Staged.of_decodeRecord`: what is decoded from an arbitrary record is fresh from its record
  (`Staged.Fresh`) and fits a record as long as that one.
-/

namespace ParticleSim

/-! ### Lists -/

namespace RosterRecord

variable {F : Family} {r r' : OpenRecord}

def data (l : RosterRecord F) : List Datum := [.u64 l.count, .u64 l.version.val, .pointer l.head]

theorem read_eq_ok {l : RosterRecord F} :
    read F r = .ok l r' ↔ l.object = r.object ∧ l.members = [] ∧ r.Splits l.data r' := by
  refine bind_eq_ok.trans ?_
  constructor
  · rintro ⟨count, r₁, hc, h₁⟩
    obtain ⟨version, r₂, hv, h₂⟩ := bind_eq_ok.mp h₁
    obtain ⟨head, r₃, hh, h₃⟩ := bind_eq_ok.mp h₂
    obtain ⟨object, r₄, ho, h₄⟩ := bind_eq_ok.mp h₃
    obtain ⟨rfl, rfl⟩ := pure_eq_ok.mp h₄
    obtain ⟨_, _, hg, ho⟩ := bind_eq_ok.mp ho
    cases hg
    obtain ⟨rfl, rfl⟩ := pure_eq_ok.mp ho
    have hs := OpenRecord.splits_cons.mpr ⟨r₁, RecordReader.u64_eq_ok.mp hc,
      OpenRecord.splits_cons.mpr ⟨r₂, RecordReader.u64_eq_ok.mp hv, RecordReader.pointer_eq_ok.mp hh⟩⟩
    exact ⟨hs.object.symm, rfl, hs⟩
  · rintro ⟨ho, hm, hs⟩
    obtain ⟨object, count, ⟨version⟩, head, members⟩ := l
    simp only at ho hm
    subst hm
    have ho' : r'.object = object := hs.object.symm.trans ho.symm
    obtain ⟨r₁, hc, hs₁⟩ := OpenRecord.splits_cons.mp hs
    obtain ⟨r₂, hv, hh⟩ := OpenRecord.splits_cons.mp hs₁
    refine ⟨count, r₁, RecordReader.u64_eq_ok.mpr hc, bind_eq_ok.mpr ⟨version, r₂,
      RecordReader.u64_eq_ok.mpr hv, bind_eq_ok.mpr ⟨head, r', RecordReader.pointer_eq_ok.mpr hh,
        bind_eq_ok.mpr ⟨r'.object, r', rfl, ?_⟩⟩⟩⟩
    rw [ho']
    rfl

end RosterRecord

/-! ### Simulations -/

namespace SimulationRecord

variable {r r' : OpenRecord}

def fieldData : Option Real32 → List Datum
  | some damping => [.u8 1, .f32 damping]
  | none => [.u8 0]

def data (s : SimulationRecord) : List Datum :=
  [.u64 s.step] ++ ([.u32 (.ofNat s.species.size)] ++
    (s.species.toList.flatMap Simulation.speciesData ++ (fieldData s.field ++
      ([.pointer s.control] ++ ([.pointer s.boundaries] ++
        ([.pointer s.collisions] ++ [.pointer s.emitters]))))))

theorem readSpecies_eq_ok (sp : Species) (r r' : OpenRecord) :
    readSpecies r = .ok sp r' ↔
      (Datum.text sp.name).Fits ∧ r.Splits (Simulation.speciesData sp) r' := by
  refine bind_eq_ok.trans ?_
  constructor
  · rintro ⟨charge, r₁, hc, h₁⟩
    obtain ⟨mass, r₂, hm, h₂⟩ := bind_eq_ok.mp h₁
    obtain ⟨population, r₃, hp, h₃⟩ := bind_eq_ok.mp h₂
    obtain ⟨name, r₄, hn, h₄⟩ := bind_eq_ok.mp h₃
    obtain ⟨rfl, rfl⟩ := pure_eq_ok.mp h₄
    obtain ⟨hf, hn⟩ := RecordReader.text_eq_ok.mp hn
    exact ⟨hf, OpenRecord.splits_cons.mpr ⟨r₁, RecordReader.f32_eq_ok.mp hc,
      OpenRecord.splits_cons.mpr ⟨r₂, RecordReader.f32_eq_ok.mp hm,
        OpenRecord.splits_cons.mpr ⟨r₃, RecordReader.u64_eq_ok.mp hp, hn⟩⟩⟩⟩
  · rintro ⟨hf, hs⟩
    obtain ⟨r₁, hc, hs₁⟩ := OpenRecord.splits_cons.mp hs
    obtain ⟨r₂, hm, hs₂⟩ := OpenRecord.splits_cons.mp hs₁
    obtain ⟨r₃, hp, hn⟩ := OpenRecord.splits_cons.mp hs₂
    exact ⟨sp.charge, r₁, RecordReader.f32_eq_ok.mpr hc, bind_eq_ok.mpr ⟨sp.mass, r₂,
      RecordReader.f32_eq_ok.mpr hm, bind_eq_ok.mpr ⟨sp.population, r₃,
        RecordReader.u64_eq_ok.mpr hp, bind_eq_ok.mpr ⟨sp.name, r',
          RecordReader.text_eq_ok.mpr ⟨hf, hn⟩, rfl⟩⟩⟩⟩

theorem readField_of_splits {field : Option Real32} (h : r.Splits (fieldData field) r') :
    readField r = .ok field r' := by
  cases field with
  | none => exact bind_eq_ok.mpr ⟨0, r', RecordReader.u8_eq_ok.mpr h, rfl⟩
  | some damping =>
      obtain ⟨r₁, hflag, hd⟩ := OpenRecord.splits_cons.mp h
      exact bind_eq_ok.mpr ⟨1, r₁, RecordReader.u8_eq_ok.mpr hflag,
        bind_eq_ok.mpr ⟨damping, r', RecordReader.f32_eq_ok.mpr hd, rfl⟩⟩

theorem spends_of_readField {field : Option Real32} (h : readField r = .ok field r') :
    r.Spends (fieldData field) r' := by
  obtain ⟨flag, r₁, hflag, h₁⟩ := bind_eq_ok.mp h
  have hflag := (RecordReader.u8_eq_ok.mp hflag).spends
  split at h₁
  · obtain ⟨rfl, rfl⟩ := pure_eq_ok.mp h₁
    exact hflag.flag 0
  · obtain ⟨damping, r₂, hd, h₂⟩ := bind_eq_ok.mp h₁
    obtain ⟨rfl, rfl⟩ := pure_eq_ok.mp h₂
    exact (hflag.flag 1).trans (RecordReader.f32_eq_ok.mp hd).spends

theorem readPart_eq_ok {part : SimulationPart} {object : ObjectId} :
    readPart part r = .ok object r' ↔ r.Splits [.pointer (some object)] r' := by
  refine bind_eq_ok.trans ?_
  constructor
  · rintro ⟨target, r₁, ht, h₁⟩
    cases target with
    | none => exact absurd h₁ throw_ne_ok
    | some object' =>
        obtain ⟨rfl, rfl⟩ := pure_eq_ok.mp h₁
        exact RecordReader.pointer_eq_ok.mp ht
  · exact fun h => ⟨some object, r', RecordReader.pointer_eq_ok.mpr h, rfl⟩

theorem read_of_splits {s : SimulationRecord} (hn : s.species.size < UInt32.size)
    (hf : ∀ d ∈ s.data, d.Fits) (h : r.Splits s.data r') : read r = .ok s r' := by
  obtain ⟨r₁, h₁, h⟩ := OpenRecord.splits_append.mp h
  obtain ⟨r₂, h₂, h⟩ := OpenRecord.splits_append.mp h
  obtain ⟨r₃, h₃, h⟩ := OpenRecord.splits_append.mp h
  obtain ⟨r₄, h₄, h⟩ := OpenRecord.splits_append.mp h
  obtain ⟨r₅, h₅, h⟩ := OpenRecord.splits_append.mp h
  obtain ⟨r₆, h₆, h⟩ := OpenRecord.splits_append.mp h
  obtain ⟨r₇, h₇, h₈⟩ := OpenRecord.splits_append.mp h
  have hnames : ∀ sp ∈ s.species.toList, (Datum.text sp.name).Fits := by
    intro sp hsp
    refine hf _ ?_
    simp only [data, List.mem_append, List.mem_flatMap]
    exact .inr (.inr (.inl ⟨sp, hsp, by simp [Simulation.speciesData]⟩))
  refine bind_eq_ok.mpr ⟨s.step, r₁, RecordReader.u64_eq_ok.mpr h₁, bind_eq_ok.mpr ⟨_, r₂,
    RecordReader.u32_eq_ok.mpr h₂, bind_eq_ok.mpr ⟨s.species.toList, r₃,
      (RecordReader.times_splits readSpecies_eq_ok).mpr ⟨?_, hnames, h₃⟩, bind_eq_ok.mpr ⟨s.field, r₄,
        readField_of_splits h₄, bind_eq_ok.mpr ⟨s.control, r₅, readPart_eq_ok.mpr h₅,
          bind_eq_ok.mpr ⟨s.boundaries, r₆, readPart_eq_ok.mpr h₆, bind_eq_ok.mpr ⟨s.collisions, r₇,
            readPart_eq_ok.mpr h₇, bind_eq_ok.mpr ⟨s.emitters, r', readPart_eq_ok.mpr h₈, rfl⟩⟩⟩⟩⟩⟩⟩⟩
  exact (UInt32.toNat_ofNat_of_lt' hn).symm

theorem of_read {s : SimulationRecord} (h : read r = .ok s r') :
    s.species.size < UInt32.size ∧ r.Spends s.data r' := by
  obtain ⟨step, r₁, h₁, h⟩ := bind_eq_ok.mp h
  obtain ⟨count, r₂, h₂, h⟩ := bind_eq_ok.mp h
  obtain ⟨species, r₃, h₃, h⟩ := bind_eq_ok.mp h
  obtain ⟨field, r₄, h₄, h⟩ := bind_eq_ok.mp h
  obtain ⟨control, r₅, h₅, h⟩ := bind_eq_ok.mp h
  obtain ⟨boundaries, r₆, h₆, h⟩ := bind_eq_ok.mp h
  obtain ⟨collisions, r₇, h₇, h⟩ := bind_eq_ok.mp h
  obtain ⟨emitters, r₈, h₈, h⟩ := bind_eq_ok.mp h
  obtain ⟨rfl, rfl⟩ := pure_eq_ok.mp h
  obtain ⟨hl, -, h₃⟩ := (RecordReader.times_splits readSpecies_eq_ok).mp h₃
  have hcount : UInt32.ofNat (SpeciesList.mk species).size = count := by
    rw [SpeciesList.size, hl, UInt32.ofNat_toNat]
  have hn : (SpeciesList.mk species).size < UInt32.size := by
    rw [SpeciesList.size, hl]
    exact count.toNat_lt
  refine ⟨hn, ?_⟩
  have s₂ := (RecordReader.u32_eq_ok.mp h₂).spends
  rw [← hcount] at s₂
  exact (RecordReader.u64_eq_ok.mp h₁).spends.trans (s₂.trans (h₃.spends.trans
    ((spends_of_readField h₄).trans ((readPart_eq_ok.mp h₅).spends.trans
      ((readPart_eq_ok.mp h₆).spends.trans ((readPart_eq_ok.mp h₇).spends.trans
        (readPart_eq_ok.mp h₈).spends))))))

end SimulationRecord

/-! ### Behaviors looked up again -/

/-- The same component with the behavior that its symbol has in the tables at hand. -/
def Component.Rebound (behaviors : Behaviors) {F : Family} (c c' : Component F) : Prop :=
  ∃ behavior, behaviors.bind F (c.behavior.map (·.symbol)) = .ok behavior ∧ c' = { c with behavior }

/-- The behavior of a component is the one that its symbol has in the tables at hand. -/
def Component.Bound (behaviors : Behaviors) {F : Family} (c : Component F) : Prop :=
  behaviors.bind F (c.behavior.map (·.symbol)) = .ok c.behavior

namespace Component

variable {F : Family} {behaviors : Behaviors} {c c' : Component F}

theorem Bound.rebound_iff (h : c.Bound behaviors) : c.Rebound behaviors c' ↔ c' = c := by
  constructor
  · rintro ⟨behavior, hb, rfl⟩
    rw [h] at hb
    cases hb
    rfl
  · rintro rfl
    exact ⟨_, h, rfl⟩

/-- A component finds a behavior exactly when its symbol, if it has one, is in the table. -/
theorem exists_rebound_iff :
    (∃ c', c.Rebound behaviors c') ↔
      ∀ b ∈ c.behavior, ((behaviors.table F).find? b.symbol).isSome := by
  obtain ⟨object, name, id, kind, params, behavior, link⟩ := c
  cases behavior with
  | none => exact ⟨fun _ b hb => absurd hb (Option.not_mem_none b), fun _ => ⟨_, none, rfl, rfl⟩⟩
  | some b =>
      constructor
      · rintro ⟨c', behavior, hb, rfl⟩ b' ⟨⟩
        simp only [Option.map_some, Behaviors.bind] at hb
        split at hb
        · next hf => rw [hf]; rfl
        · cases hb
      · intro h
        obtain ⟨f, hf⟩ := Option.isSome_iff_exists.mp (h b rfl)
        refine ⟨_, some ⟨b.symbol, f⟩, ?_, rfl⟩
        simp only [Option.map_some, Behaviors.bind, hf]

end Component

namespace Staged

variable {behaviors : Behaviors} {id : ObjectId} {o o' : Staged}

/-! ### Tags and data -/

/-- The tag of the records that become such an object. -/
def tag : Staged → String
  | component F _ => F.tag
  | roster F _ => F.listTag
  | control _ => controlTag
  | simulation _ => simulationTag

/-- Only a simulation has the tag of one. -/
theorem tag_eq_simulationTag : o.tag = simulationTag ↔ ∃ r, o = simulation r := by
  constructor
  · intro h
    rcases o with ⟨F, c⟩ | ⟨F, l⟩ | state | r
    · cases F <;> simp [tag, Family.tag, simulationTag] at h
    · cases F <;> simp [tag, Family.listTag, simulationTag] at h
    · simp [tag, controlTag, simulationTag] at h
    · exact ⟨r, rfl⟩
  · rintro ⟨r, rfl⟩
    rfl

/-- What such an object is written as. -/
def data : Staged → List Datum
  | component _ c => c.data
  | roster _ l => l.data
  | control state => [.bytes state]
  | simulation r => r.data

/-- Such an object as a checkpoint sees it. -/
def live : Staged → LiveObject
  | simulation r =>
    ⟨simulationTag, if r.species.size < UInt32.size then .ok r.data
      else .error (.streamFormat .tooManySpecies)⟩
  | o => ⟨o.tag, .ok o.data⟩

theorem live_tag (o : Staged) : o.live.tag = o.tag := by
  cases o <;> rfl

/-- The number of species fits its word. -/
def Countable : Staged → Prop
  | simulation r => r.species.size < UInt32.size
  | _ => True

theorem live_data_eq_ok {data : List Datum} :
    o.live.data = .ok data ↔ o.Countable ∧ data = o.data := by
  rcases o with ⟨F, c⟩ | ⟨F, l⟩ | state | r
  · simp [live, Countable, eq_comm]
  · simp [live, Countable, eq_comm]
  · simp [live, Countable, eq_comm]
  · simp only [live, Countable, Staged.data]
    split
    · next h => simp [h, eq_comm]
    · next h => simp [h]

/-- An object as it is right after its record was read: it knows its identity, and a list does not
know its members. -/
def Fresh (id : ObjectId) : Staged → Prop
  | component _ c => c.object = id
  | roster _ l => l.object = id ∧ l.members = []
  | _ => True

/-- The behavior of a component, if it is one, is the one that its symbol has. -/
def Bound (behaviors : Behaviors) : Staged → Prop
  | component _ c => c.Bound behaviors
  | _ => True

/-- The same object with its behavior looked up again. -/
inductive Rebound (behaviors : Behaviors) : Staged → Staged → Prop where
  | component {F : Family} {c c' : Component F} (h : c.Rebound behaviors c') :
      Rebound behaviors (component F c) (component F c')
  | roster {F : Family} (l : RosterRecord F) : Rebound behaviors (roster F l) (roster F l)
  | control (state : Bytes) : Rebound behaviors (control state) (control state)
  | simulation (r : SimulationRecord) : Rebound behaviors (simulation r) (simulation r)

theorem Rebound.tag_eq (h : o.Rebound behaviors o') : o'.tag = o.tag := by
  cases h <;> rfl

/-- An object is what the reader of its type makes of a record. -/
def ReadFrom (behaviors : Behaviors) : Staged → OpenRecord → OpenRecord → Prop
  | component F c, r, r' => Component.read behaviors F r = .ok c r'
  | roster F l, r, r' => RosterRecord.read F r = .ok l r'
  | control state, r, r' => RecordReader.bytes r = .ok state r'
  | simulation s, r, r' => SimulationRecord.read r = .ok s r'

/-! ### Decoding -/

theorem find?_decoders (behaviors : Behaviors) (tag : String) :
    (decoders behaviors).find? tag =
      if tag = simulationTag then some (simulation <$> SimulationRecord.read)
      else if tag = controlTag then some (control <$> RecordReader.bytes)
      else if tag = Family.emitter.listTag then some (roster .emitter <$> RosterRecord.read .emitter)
      else if tag = Family.emitter.tag then
        some (component .emitter <$> Component.read behaviors .emitter)
      else if tag = Family.collision.listTag then
        some (roster .collision <$> RosterRecord.read .collision)
      else if tag = Family.collision.tag then
        some (component .collision <$> Component.read behaviors .collision)
      else if tag = Family.boundary.listTag then
        some (roster .boundary <$> RosterRecord.read .boundary)
      else if tag = Family.boundary.tag then
        some (component .boundary <$> Component.read behaviors .boundary)
      else none := by
  simp only [decoders, componentDecoders, Family.all, List.foldl_cons, List.foldl_nil, familyDecoders,
    OrderedMap.find?_insert]
  rfl

/-- The reader of the objects of the same type. -/
def decoder (behaviors : Behaviors) : Staged → RecordReader Staged
  | component F _ => component F <$> Component.read behaviors F
  | roster F _ => roster F <$> RosterRecord.read F
  | control _ => control <$> RecordReader.bytes
  | simulation _ => simulation <$> SimulationRecord.read

theorem find?_tag (behaviors : Behaviors) (o : Staged) :
    (decoders behaviors).find? o.tag = some (decoder behaviors o) := by
  rw [find?_decoders]
  rcases o with ⟨F, c⟩ | ⟨F, l⟩ | state | s
  · cases F <;> simp [tag, decoder, Family.tag, Family.listTag, simulationTag, controlTag]
  · cases F <;> simp [tag, decoder, Family.tag, Family.listTag, simulationTag, controlTag]
  · simp [tag, decoder, simulationTag, controlTag]
  · simp [tag, decoder]

/-- A tag stands for one reader. -/
theorem decoder_iff {tag : String} {r r' : OpenRecord} :
    (∃ decode, (decoders behaviors).find? tag = some decode ∧ decode r = .ok o r') ↔
      tag = o.tag ∧ o.ReadFrom behaviors r r' := by
  constructor
  · rintro ⟨decode, hd, hr⟩
    rw [find?_decoders] at hd
    repeat
      split at hd
      · next ht =>
        cases hd
        obtain ⟨a, ha, rfl⟩ := map_eq_ok.mp hr
        exact ⟨ht, ha⟩
    cases hd
  · rintro ⟨rfl, hr⟩
    refine ⟨decoder behaviors o, find?_tag behaviors o, ?_⟩
    cases o <;> exact map_eq_ok.mpr ⟨_, hr, rfl⟩

/-- A record becomes an object of the type of its tag, which has to take all of it. -/
theorem decodeRecord_eq_ok {tag : String} {r : Record} :
    Stream.decodeRecord (decoders behaviors) id tag r = .ok o ↔
      tag = o.tag ∧ ∃ r', o.ReadFrom behaviors (r.open id) r' ∧ r'.blob = [] ∧ r'.fields = [] := by
  rw [Stream.decodeRecord_eq_ok]
  constructor
  · rintro ⟨decode, hd, r', hr, hb, hf⟩
    obtain ⟨ht, hread⟩ := decoder_iff.mp ⟨decode, hd, hr⟩
    exact ⟨ht, r', hread, hb, hf⟩
  · rintro ⟨ht, r', hread, hb, hf⟩
    obtain ⟨decode, hd, hr⟩ := decoder_iff.mpr ⟨ht, hread⟩
    exact ⟨decode, hd, r', hr, hb, hf⟩

/-- **A part is decoded from its own data** as it was, with its behavior looked up again. -/
theorem decodeRecord_ofData (hid : o.Fresh id) (hn : o.Countable)
    (hb : (Record.ofData o.data).blob.length < UInt32.size)
    (hf : (Record.ofData o.data).fields.length < UInt32.size) :
    Stream.decodeRecord (decoders behaviors) id o.tag (.ofData o.data) = .ok o' ↔
      o.Rebound behaviors o' := by
  have hfits : ∀ d ∈ o.data, d.Fits := fun d hd => Record.fits_of_mem hd hf
  have hs := OpenRecord.splits_ofData id o.data
  constructor
  · intro h
    obtain ⟨decode, hd, r', hr, -, -⟩ := Stream.decodeRecord_eq_ok.mp h
    rw [find?_tag] at hd
    cases hd
    rcases o with ⟨F, c⟩ | ⟨F, l⟩ | state | s
    · obtain rfl : c.object = id := hid
      obtain ⟨c', hc, rfl⟩ := map_eq_ok.mp hr
      obtain ⟨behavior, hbind⟩ := Component.bind_of_read_splits rfl hfits hb hs hc
      rw [Component.read_of_splits rfl hfits hb hs hbind] at hc
      cases hc
      exact .component ⟨behavior, hbind, rfl⟩
    · obtain ⟨l', hl, rfl⟩ := map_eq_ok.mp hr
      rw [RosterRecord.read_eq_ok.mpr ⟨hid.1, hid.2, hs⟩] at hl
      cases hl
      exact .roster l
    · obtain ⟨state', hc, rfl⟩ := map_eq_ok.mp hr
      rw [RecordReader.bytes_eq_ok.mpr ⟨hfits _ List.mem_cons_self, hs⟩] at hc
      cases hc
      exact .control state
    · obtain ⟨s', hc, rfl⟩ := map_eq_ok.mp hr
      rw [SimulationRecord.read_of_splits hn hfits hs] at hc
      cases hc
      exact .simulation s
  · -- nothing is left of the record, as the data are all that it has
    intro h
    refine decodeRecord_eq_ok.mpr ⟨h.tag_eq.symm, ⟨id, [], []⟩, ?_, rfl, rfl⟩
    cases h with
    | @component F c c' h =>
        obtain ⟨behavior, hbind, rfl⟩ := h
        obtain rfl : c.object = id := hid
        exact Component.read_of_splits rfl hfits hb hs hbind
    | roster l => exact RosterRecord.read_eq_ok.mpr ⟨hid.1, hid.2, hs⟩
    | control state => exact RecordReader.bytes_eq_ok.mpr ⟨hfits _ List.mem_cons_self, hs⟩
    | simulation s => exact SimulationRecord.read_of_splits hn hfits hs

/-- **What is decoded from any record** is fresh from it, has its behavior from the tables, and
writes as much as was read. -/
theorem of_decodeRecord {tag : String} {r : Record}
    (h : Stream.decodeRecord (decoders behaviors) id tag r = .ok o) :
    tag = o.tag ∧ o.Fresh id ∧ o.Bound behaviors ∧ o.Countable ∧
      (Record.ofData o.data).blob.length = r.blob.length ∧
      (Record.ofData o.data).fields.length = r.fields.length := by
  obtain ⟨ht, r', hread, hb, hf⟩ := decodeRecord_eq_ok.mp h
  have hparts : o.Fresh id ∧ o.Bound behaviors ∧ o.Countable ∧ (r.open id).Spends o.data r' := by
    rcases o with ⟨F, c⟩ | ⟨F, l⟩ | state | s
    · obtain ⟨ho, hbind, hs⟩ := Component.of_read hread
      exact ⟨ho, hbind, trivial, hs⟩
    · obtain ⟨ho, hm, hs⟩ := RosterRecord.read_eq_ok.mp hread
      exact ⟨⟨ho, hm⟩, trivial, trivial, hs.spends⟩
    · obtain ⟨-, hs⟩ := RecordReader.bytes_eq_ok.mp hread
      exact ⟨trivial, trivial, trivial, hs.spends⟩
    · obtain ⟨hn, hs⟩ := SimulationRecord.of_read hread
      exact ⟨trivial, trivial, hn, hs⟩
  obtain ⟨hid, hbound, hn, -, hblob, hfields⟩ := hparts
  refine ⟨ht, hid, hbound, hn, ?_, ?_⟩
  · simpa [hb, Record.open, Record.ofData] using hblob.symm
  · simpa [hf, Record.open, Record.ofData] using hfields.symm

end Staged

end ParticleSim
