import ParticleSim.Component.Record
import ParticleSim.Proofs.Checkpoint.Records
import Mathlib.Data.List.Nodup

/-!
# Components — Records, read back

A component is read back from its own data as it was, but for its behavior, which is the one that
its name has in the tables at hand (`Component.read_of_splits`); without such a behavior nothing is
read.

What is read from an arbitrary record is a component whose behavior has its name in the tables, and
that would write a record of the same length (`Component.of_read`).
-/

namespace ParticleSim

namespace Family

theorem nodup_kinds (F : Family) : F.kinds.Nodup := by
  cases F <;> decide

theorem kindOf?_eq_some {F : Family} {code : UInt32} {kind : F.Kind} :
    F.kindOf? code = some kind ↔ code = F.code kind := by
  constructor
  · intro h
    obtain ⟨hlt, rfl⟩ := List.getElem?_eq_some_iff.mp h
    rw [Family.code, F.nodup_kinds.idxOf_getElem, UInt32.ofNat_toNat]
  · rintro rfl
    cases F <;> cases kind <;> rfl

end Family

/-- A name that is bound is the name of what it is bound to. -/
theorem Behaviors.symbol_of_bind {behaviors : Behaviors} {F : Family} {symbol : Option String}
    {behavior : Option (BoundBehavior F)} (h : behaviors.bind F symbol = .ok behavior) :
    behavior.map BoundBehavior.symbol = symbol := by
  cases symbol with
  | none => cases h; rfl
  | some symbol =>
      simp only [bind] at h
      split at h
      · cases h; rfl
      · cases h

namespace BoundaryParams

variable {r r' : OpenRecord}

/-- Lengths fit the words that they are written as. -/
def Counted : BoundaryParams → Prop
  | none => True
  | reflux parallel perpendicular =>
    parallel.length < UInt32.size ∧ perpendicular.length < UInt32.size
  | tally absorbed => absorbed.length < UInt32.size

theorem readCounted_eq_ok {α : Type} {read : RecordReader α} {write : α → Datum}
    (h : ∀ a r r', read r = .ok a r' ↔ r.Splits [write a] r') {as : List α} :
    readCounted read r = .ok as r' ↔
      as.length < UInt32.size ∧ r.Splits (counted write as) r' := by
  have htimes : ∀ (n : Nat) (r : OpenRecord), RecordReader.times n read r = .ok as r' ↔
      as.length = n ∧ (∀ a ∈ as, True) ∧ r.Splits (as.flatMap fun a => [write a]) r' :=
    fun n r => RecordReader.times_splits fun a r r' => (h a r r').trans (and_iff_right trivial).symm
  refine bind_eq_ok.trans ?_
  rw [counted]
  constructor
  · rintro ⟨n, r₁, hn, has⟩
    obtain ⟨hl, -, hs⟩ := (htimes _ _).mp has
    have hw : UInt32.ofNat as.length = n := by rw [hl, UInt32.ofNat_toNat]
    refine ⟨hl ▸ n.toNat_lt, OpenRecord.splits_cons.mpr ⟨r₁, ?_, ?_⟩⟩
    · rw [hw]
      exact RecordReader.u32_eq_ok.mp hn
    · rwa [← List.flatMap_pure_eq_map]
  · rintro ⟨hl, hs⟩
    obtain ⟨r₁, hn, has⟩ := OpenRecord.splits_cons.mp hs
    refine ⟨.ofNat as.length, r₁, RecordReader.u32_eq_ok.mpr hn, (htimes _ _).mpr ⟨?_, ?_, ?_⟩⟩
    · exact (UInt32.toNat_ofNat_of_lt' hl).symm
    · exact fun _ _ => trivial
    · rwa [← List.flatMap_pure_eq_map] at has

theorem read_eq_ok {p : BoundaryParams} : read r = .ok p r' ↔ p.Counted ∧ r.Splits p.data r' := by
  have hf32 : ∀ {r r'} (as : List Real32), readCounted RecordReader.f32 r = .ok as r' ↔
      as.length < UInt32.size ∧ r.Splits (counted Datum.f32 as) r' :=
    fun as => readCounted_eq_ok fun _ _ _ => RecordReader.f32_eq_ok
  have hu64 : ∀ {r r'} (as : List UInt64), readCounted RecordReader.u64 r = .ok as r' ↔
      as.length < UInt32.size ∧ r.Splits (counted Datum.u64 as) r' :=
    fun as => readCounted_eq_ok fun _ _ _ => RecordReader.u64_eq_ok
  refine bind_eq_ok.trans ?_
  constructor
  · rintro ⟨tag, r₁, ht, h₁⟩
    have hs := RecordReader.u8_eq_ok.mp ht
    split at h₁
    · obtain ⟨rfl, rfl⟩ := pure_eq_ok.mp h₁
      exact ⟨trivial, hs⟩
    · obtain ⟨parallel, r₂, hp, h₂⟩ := bind_eq_ok.mp h₁
      obtain ⟨perpendicular, r₃, hq, h₃⟩ := bind_eq_ok.mp h₂
      obtain ⟨rfl, rfl⟩ := pure_eq_ok.mp h₃
      obtain ⟨hpl, hps⟩ := (hf32 _).mp hp
      obtain ⟨hql, hqs⟩ := (hf32 _).mp hq
      exact ⟨⟨hpl, hql⟩, OpenRecord.splits_cons.mpr ⟨r₁, hs,
        OpenRecord.splits_append.mpr ⟨r₂, hps, hqs⟩⟩⟩
    · obtain ⟨absorbed, r₂, ha, h₂⟩ := bind_eq_ok.mp h₁
      obtain ⟨rfl, rfl⟩ := pure_eq_ok.mp h₂
      obtain ⟨hal, has⟩ := (hu64 _).mp ha
      exact ⟨hal, OpenRecord.splits_cons.mpr ⟨r₁, hs, has⟩⟩
    · exact absurd h₁ throw_ne_ok
  · rintro ⟨hc, hs⟩
    cases p with
    | none => exact ⟨0, r', RecordReader.u8_eq_ok.mpr hs, rfl⟩
    | reflux parallel perpendicular =>
        obtain ⟨r₁, ht, hs₁⟩ := OpenRecord.splits_cons.mp hs
        obtain ⟨r₂, hp, hq⟩ := OpenRecord.splits_append.mp hs₁
        refine ⟨1, r₁, RecordReader.u8_eq_ok.mpr ht, ?_⟩
        exact bind_eq_ok.mpr ⟨_, r₂, (hf32 _).mpr ⟨hc.1, hp⟩,
          bind_eq_ok.mpr ⟨_, r', (hf32 _).mpr ⟨hc.2, hq⟩, rfl⟩⟩
    | tally absorbed =>
        obtain ⟨r₁, ht, ha⟩ := OpenRecord.splits_cons.mp hs
        exact ⟨2, r₁, RecordReader.u8_eq_ok.mpr ht,
          bind_eq_ok.mpr ⟨_, r', (hu64 _).mpr ⟨hc, ha⟩, rfl⟩⟩

/-- Lengths fit when the blob does. -/
theorem counted_of_length_blob {p : BoundaryParams}
    (h : (p.data.flatMap Datum.blob).length < UInt32.size) : p.Counted := by
  cases p with
  | none => trivial
  | reflux parallel perpendicular =>
      simp only [data, counted, List.flatMap_cons, List.flatMap_append, List.flatMap_map,
        List.length_append, List.length_flatMap, Datum.blob, Bytes.length_ofU32, List.map_const',
        List.sum_replicate_nat] at h
      constructor <;> omega
  | tally absorbed =>
      simp only [data, counted, List.flatMap_cons, List.flatMap_map, List.length_append,
        List.length_flatMap, Datum.blob, Bytes.length_ofU64, List.map_const',
        List.sum_replicate_nat] at h
      show absorbed.length < UInt32.size
      omega

end BoundaryParams

namespace EmitterParams

variable {r r' : OpenRecord} {p : EmitterParams}

theorem read_of_splits (hf : ∀ d ∈ p.data, d.Fits) (h : r.Splits p.data r') :
    read r = .ok p r' := by
  obtain ⟨state, voxels⟩ := p
  cases voxels with
  | none =>
      obtain ⟨r₁, hstate, hflag⟩ := OpenRecord.splits_cons.mp h
      refine bind_eq_ok.mpr ⟨state, r₁, RecordReader.bytes_eq_ok.mpr ⟨?_, hstate⟩,
        bind_eq_ok.mpr ⟨0, r', RecordReader.u8_eq_ok.mpr hflag, rfl⟩⟩
      exact hf (.bytes state) (by simp [data])
  | some voxels =>
      obtain ⟨r₁, hstate, h₁⟩ := OpenRecord.splits_cons.mp h
      obtain ⟨r₂, hflag, hvoxels⟩ := OpenRecord.splits_cons.mp h₁
      refine bind_eq_ok.mpr ⟨state, r₁, RecordReader.bytes_eq_ok.mpr ⟨?_, hstate⟩,
        bind_eq_ok.mpr ⟨1, r₂, RecordReader.u8_eq_ok.mpr hflag,
          bind_eq_ok.mpr ⟨voxels.toList, r', RecordReader.i32s_eq_ok.mpr ⟨?_, hvoxels⟩, rfl⟩⟩⟩
      · exact hf (.bytes state) (by simp [data])
      · exact hf (.i32s voxels.toList) (by simp [data])

theorem spends_of_read (h : read r = .ok p r') : r.Spends p.data r' := by
  obtain ⟨state, r₁, hstate, h₁⟩ := bind_eq_ok.mp h
  obtain ⟨-, hstate⟩ := RecordReader.bytes_eq_ok.mp hstate
  obtain ⟨flag, r₂, hflag, h₂⟩ := bind_eq_ok.mp h₁
  have hflag := (RecordReader.u8_eq_ok.mp hflag).spends
  split at h₂
  · obtain ⟨rfl, rfl⟩ := pure_eq_ok.mp h₂
    exact hstate.spends.trans (hflag.flag 0)
  · obtain ⟨voxels, r₃, hvoxels, h₃⟩ := bind_eq_ok.mp h₂
    obtain ⟨rfl, rfl⟩ := pure_eq_ok.mp h₃
    obtain ⟨-, hvoxels⟩ := RecordReader.i32s_eq_ok.mp hvoxels
    exact hstate.spends.trans ((hflag.flag 1).trans hvoxels.spends)

end EmitterParams

namespace Family

variable {r r' : OpenRecord}

/-- Parameters are read back from their data when these fit. -/
theorem readParams_of_splits (F : Family) {params : F.Params}
    (hf : ∀ d ∈ F.paramsData params, d.Fits)
    (hb : ((F.paramsData params).flatMap Datum.blob).length < UInt32.size)
    (h : r.Splits (F.paramsData params) r') : F.readParams r = .ok params r' := by
  cases F with
  | boundary => exact BoundaryParams.read_eq_ok.mpr ⟨BoundaryParams.counted_of_length_blob hb, h⟩
  | collision => exact RecordReader.bytes_eq_ok.mpr ⟨hf _ List.mem_cons_self, h⟩
  | emitter => exact EmitterParams.read_of_splits hf h

theorem spends_of_readParams (F : Family) {params : F.Params} (h : F.readParams r = .ok params r') :
    r.Spends (F.paramsData params) r' := by
  cases F with
  | boundary => exact (BoundaryParams.read_eq_ok.mp h).2.spends
  | collision => exact (RecordReader.bytes_eq_ok.mp h).2.spends
  | emitter => exact EmitterParams.spends_of_read h

end Family

namespace Component

variable {F : Family} {behaviors : Behaviors} {c : Component F} {r r' : OpenRecord}

/-! ### The parts of a component -/

/-- An id behind its flag, as data. -/
def idData : Option ComponentId → List Datum
  | some id => [.u8 1, .i64 id.val]
  | none => [.u8 0]

/-- The object that a link leads to. -/
def linkTarget : Option Link → Option ObjectId
  | some (.next object) => some object
  | _ => none

theorem data_eq (c : Component F) :
    c.data = [.u32 (F.code c.kind)] ++ (idData c.id ++
      ([.u8 (if c.link.isSome then 1 else 0)] ++ ([.text c.name] ++
        ([.symbol (c.behavior.map (·.symbol))] ++ ([.pointer (linkTarget c.link)] ++
          F.paramsData c.params))))) := by
  obtain ⟨object, name, id, kind, params, behavior, link⟩ := c
  cases id <;> rfl

theorem readKind_eq_ok {kind : F.Kind} :
    readKind F r = .ok kind r' ↔ r.Splits [.u32 (F.code kind)] r' := by
  refine bind_eq_ok.trans ?_
  constructor
  · rintro ⟨code, r₁, hc, h₁⟩
    cases hk : F.kindOf? code with
    | none => rw [hk] at h₁; exact absurd h₁ throw_ne_ok
    | some kind' =>
        rw [hk] at h₁
        obtain ⟨rfl, rfl⟩ := pure_eq_ok.mp h₁
        obtain rfl := Family.kindOf?_eq_some.mp hk
        exact RecordReader.u32_eq_ok.mp hc
  · intro h
    refine ⟨F.code kind, r', RecordReader.u32_eq_ok.mpr h, ?_⟩
    rw [Family.kindOf?_eq_some.mpr rfl]
    rfl

theorem readId_of_splits {id : Option ComponentId} (h : r.Splits (idData id) r') :
    readId r = .ok id r' := by
  cases id with
  | none => exact bind_eq_ok.mpr ⟨0, r', RecordReader.u8_eq_ok.mpr h, rfl⟩
  | some id =>
      obtain ⟨r₁, hflag, hid⟩ := OpenRecord.splits_cons.mp h
      exact bind_eq_ok.mpr ⟨1, r₁, RecordReader.u8_eq_ok.mpr hflag,
        bind_eq_ok.mpr ⟨id.val, r', RecordReader.i64_eq_ok.mpr hid, rfl⟩⟩

theorem spends_of_readId {id : Option ComponentId} (h : readId r = .ok id r') :
    r.Spends (idData id) r' := by
  obtain ⟨flag, r₁, hflag, h₁⟩ := bind_eq_ok.mp h
  have hflag := (RecordReader.u8_eq_ok.mp hflag).spends
  split at h₁
  · obtain ⟨rfl, rfl⟩ := pure_eq_ok.mp h₁
    exact hflag.flag 0
  · obtain ⟨v, r₂, hv, h₂⟩ := bind_eq_ok.mp h₁
    obtain ⟨rfl, rfl⟩ := pure_eq_ok.mp h₂
    exact (hflag.flag 1).trans (RecordReader.i64_eq_ok.mp hv).spends

theorem readBehavior_eq_ok {name : String} {behavior : Option (BoundBehavior F)} :
    readBehavior behaviors F name r = .ok behavior r' ↔
      (Datum.symbol (behavior.map (·.symbol))).Fits ∧
        r.Splits [.symbol (behavior.map (·.symbol))] r' ∧
        behaviors.bind F (behavior.map (·.symbol)) = .ok behavior := by
  refine bind_eq_ok.trans ?_
  constructor
  · rintro ⟨symbol, r₁, hs, h₁⟩
    obtain ⟨hf, hs⟩ := RecordReader.symbol_eq_ok.mp hs
    cases hb : behaviors.bind F symbol with
    | error symbol => rw [hb] at h₁; exact absurd h₁ throw_ne_ok
    | ok behavior' =>
        rw [hb] at h₁
        obtain ⟨rfl, rfl⟩ := pure_eq_ok.mp h₁
        rw [Behaviors.symbol_of_bind hb]
        exact ⟨hf, hs, hb⟩
  · rintro ⟨hf, hs, hb⟩
    refine ⟨_, r', RecordReader.symbol_eq_ok.mpr ⟨hf, hs⟩, ?_⟩
    rw [hb]
    rfl

theorem readLink_eq_ok {name : String} {linked : Bool} {link : Option Link} :
    readLink F name linked r = .ok link r' ↔
      r.Splits [.pointer (linkTarget link)] r' ∧ linked = link.isSome := by
  refine bind_eq_ok.trans ?_
  constructor
  · rintro ⟨target, r₁, ht, h₁⟩
    have hs := RecordReader.pointer_eq_ok.mp ht
    cases linked <;> cases target
    · obtain ⟨rfl, rfl⟩ := pure_eq_ok.mp h₁
      exact ⟨hs, rfl⟩
    · exact absurd h₁ throw_ne_ok
    · obtain ⟨rfl, rfl⟩ := pure_eq_ok.mp h₁
      exact ⟨hs, rfl⟩
    · obtain ⟨rfl, rfl⟩ := pure_eq_ok.mp h₁
      exact ⟨hs, rfl⟩
  · rintro ⟨hs, rfl⟩
    refine ⟨_, r', RecordReader.pointer_eq_ok.mpr hs, ?_⟩
    rcases link with _ | _ | object <;> rfl

/-! ### A component -/

/-- A component whose data stand at the front of a record is read up to its behavior; then that
decides. -/
theorem read_of_splits_aux (ho : r.object = c.object) (hf : ∀ d ∈ c.data, d.Fits)
    (hb : (c.data.flatMap Datum.blob).length < UInt32.size) (h : r.Splits c.data r') :
    (∀ behavior, behaviors.bind F (c.behavior.map (·.symbol)) = .ok behavior →
      read behaviors F r = .ok { c with behavior } r') ∧
    ((∃ c' r'', read behaviors F r = .ok c' r'') →
      ∃ behavior, behaviors.bind F (c.behavior.map (·.symbol)) = .ok behavior) := by
  -- the record before each of the seven reads
  rw [data_eq] at h hf hb
  obtain ⟨r₁, h₁, h⟩ := OpenRecord.splits_append.mp h
  obtain ⟨r₂, h₂, h⟩ := OpenRecord.splits_append.mp h
  obtain ⟨r₃, h₃, h⟩ := OpenRecord.splits_append.mp h
  obtain ⟨r₄, h₄, h⟩ := OpenRecord.splits_append.mp h
  obtain ⟨r₅, h₅, h⟩ := OpenRecord.splits_append.mp h
  obtain ⟨r₆, h₆, h₇⟩ := OpenRecord.splits_append.mp h
  have hname : (Datum.text c.name).Fits := hf _ (by simp)
  have hsymbol : (Datum.symbol (c.behavior.map (·.symbol))).Fits := hf _ (by simp)
  have hparams : F.readParams r₆ = .ok c.params r' := by
    refine F.readParams_of_splits (fun d hd => hf d (by simp [hd])) ?_ h₇
    simp only [List.flatMap_append, List.length_append] at hb
    omega
  have ho' : r'.object = c.object := by
    rw [← ho, h₁.object, h₂.object, h₃.object, h₄.object, h₅.object, h₆.object, h₇.object]
  have hlink : readLink F c.name ((if c.link.isSome = true then (1 : UInt8) else 0) ≠ 0) r₅ =
      .ok c.link r₆ := by
    refine readLink_eq_ok.mpr ⟨h₆, ?_⟩
    cases c.link.isSome <;> rfl
  constructor
  · intro behavior hbind
    have hsym := Behaviors.symbol_of_bind hbind
    refine bind_eq_ok.mpr ⟨_, r₁, readKind_eq_ok.mpr h₁, bind_eq_ok.mpr ⟨_, r₂,
      readId_of_splits h₂, bind_eq_ok.mpr ⟨_, r₃, RecordReader.u8_eq_ok.mpr h₃,
        bind_eq_ok.mpr ⟨c.name, r₄, RecordReader.text_eq_ok.mpr ⟨hname, h₄⟩,
          bind_eq_ok.mpr ⟨behavior, r₅, readBehavior_eq_ok.mpr ⟨?_, ?_, ?_⟩,
            bind_eq_ok.mpr ⟨c.link, r₆, hlink, bind_eq_ok.mpr ⟨c.params, r', hparams, ?_⟩⟩⟩⟩⟩⟩⟩
    · rw [hsym]; exact hsymbol
    · rw [hsym]; exact h₅
    · rw [hsym]; exact hbind
    · refine bind_eq_ok.mpr ⟨r'.object, r', rfl, ?_⟩
      rw [ho']
      rfl
  · -- all reads before that of the behavior succeed, so it has succeeded, too
    rintro ⟨c', r'', hread⟩
    rw [read, bind_of_ok (readKind_eq_ok.mpr h₁), bind_of_ok (readId_of_splits h₂),
      bind_of_ok (RecordReader.u8_eq_ok.mpr h₃),
      bind_of_ok (RecordReader.text_eq_ok.mpr ⟨hname, h₄⟩)] at hread
    obtain ⟨behavior, _, hbehavior, -⟩ := bind_eq_ok.mp hread
    obtain ⟨symbol, _, hs, hbind⟩ := bind_eq_ok.mp hbehavior
    rw [RecordReader.symbol_eq_ok.mpr ⟨hsymbol, h₅⟩] at hs
    cases hs
    cases hb : behaviors.bind F (c.behavior.map (·.symbol)) with
    | ok behavior' => exact ⟨behavior', rfl⟩
    | error symbol => rw [hb] at hbind; exact absurd hbind throw_ne_ok

/-- **A component is read back from its own data**, with the behavior of its symbol. -/
theorem read_of_splits (ho : r.object = c.object) (hf : ∀ d ∈ c.data, d.Fits)
    (hb : (c.data.flatMap Datum.blob).length < UInt32.size) (h : r.Splits c.data r')
    {behavior : Option (BoundBehavior F)}
    (hbind : behaviors.bind F (c.behavior.map (·.symbol)) = .ok behavior) :
    read behaviors F r = .ok { c with behavior } r' :=
  (read_of_splits_aux ho hf hb h).1 behavior hbind

/-- A component that is read back from its own data has found its behavior. -/
theorem bind_of_read_splits (ho : r.object = c.object) (hf : ∀ d ∈ c.data, d.Fits)
    (hb : (c.data.flatMap Datum.blob).length < UInt32.size) (h : r.Splits c.data r')
    {c' : Component F} {r'' : OpenRecord} (hread : read behaviors F r = .ok c' r'') :
    ∃ behavior, behaviors.bind F (c.behavior.map (·.symbol)) = .ok behavior :=
  (read_of_splits_aux ho hf hb h).2 ⟨c', r'', hread⟩

/-- **What is read as a component** belongs to the record's object, has the behavior that its symbol
is bound to, and writes as much as was read. -/
theorem of_read (h : read behaviors F r = .ok c r') :
    c.object = r.object ∧ behaviors.bind F (c.behavior.map (·.symbol)) = .ok c.behavior ∧
      r.Spends c.data r' := by
  obtain ⟨kind, r₁, hk, h⟩ := bind_eq_ok.mp h
  obtain ⟨id, r₂, hi, h⟩ := bind_eq_ok.mp h
  obtain ⟨flag, r₃, hflag, h⟩ := bind_eq_ok.mp h
  obtain ⟨name, r₄, hn, h⟩ := bind_eq_ok.mp h
  obtain ⟨behavior, r₅, hbehavior, h⟩ := bind_eq_ok.mp h
  obtain ⟨link, r₆, hl, h⟩ := bind_eq_ok.mp h
  obtain ⟨params, r₇, hp, h⟩ := bind_eq_ok.mp h
  obtain ⟨object, r₈, hobject, h⟩ := bind_eq_ok.mp h
  obtain ⟨rfl, rfl⟩ := pure_eq_ok.mp h
  obtain ⟨_, r₉, hg, hobject⟩ := bind_eq_ok.mp hobject
  cases hg
  obtain ⟨rfl, rfl⟩ := pure_eq_ok.mp hobject
  have s₁ := (readKind_eq_ok.mp hk).spends
  have s₂ := spends_of_readId hi
  have s₃ := (RecordReader.u8_eq_ok.mp hflag).spends.flag (if link.isSome then 1 else 0)
  have s₄ := (RecordReader.text_eq_ok.mp hn).2.spends
  obtain ⟨-, s₅, hbind⟩ := readBehavior_eq_ok.mp hbehavior
  have s₆ := (readLink_eq_ok.mp hl).1.spends
  have s₇ := F.spends_of_readParams hp
  have hs := s₁.trans (s₂.trans (s₃.trans (s₄.trans (s₅.spends.trans (s₆.trans s₇)))))
  refine ⟨hs.object.symm, hbind, ?_⟩
  rw [data_eq]
  exact hs

end Component

end ParticleSim
