import ParticleSim.Proofs.Restore.Soundness

/-!
# Restores — What comes back

A simulation that was written and is read again comes back as it was, except that its lists are
lists of their own and that the behaviors of its members are those that their symbols have in the
tables at hand (`Simulation.Revived`).  It comes back exactly when these symbols all have a behavior
(`Simulation.exists_revived_iff`, `Host.restore_written`).
-/

namespace ParticleSim

/-! ### Revived simulations -/

/-- The same list, perhaps in another place, with the behaviors of its members looked up again. -/
structure Roster.Revived (behaviors : Behaviors) {F : Family} (l l' : Roster F) : Prop where
  object : l'.object = l.object
  version : l'.version = l.version
  members : List.Forall₂ (Component.Rebound behaviors) l.members l'.members

/-- The same simulation, with behaviors looked up again and lists perhaps in other places. -/
structure Simulation.Revived (behaviors : Behaviors) (s s' : Simulation) : Prop where
  registry : s'.registry = s.registry
  tables : s'.behaviors = behaviors
  object : s'.object = s.object
  controlObject : s'.controlObject = s.controlObject
  control : s'.control = s.control
  species : s'.species = s.species
  field : s'.field = s.field
  step : s'.step = s.step
  lists : ∀ F, (s.list F).Revived behaviors (s'.list F)

namespace Component

variable {F : Family} {behaviors : Behaviors} {c c' c'' : Component F}

theorem Rebound.akin (h : c.Rebound behaviors c') : c.Akin c' := by
  obtain ⟨behavior, -, rfl⟩ := h
  exact ⟨rfl, rfl, rfl, rfl⟩

/-- Looking a behavior up has one result. -/
theorem Rebound.unique (h : c.Rebound behaviors c') (h' : c.Rebound behaviors c'') : c' = c'' := by
  obtain ⟨behavior, hb, rfl⟩ := h
  obtain ⟨behavior', hb', rfl⟩ := h'
  rw [hb, Except.ok.injEq] at hb'
  rw [hb']

end Component

namespace Staged

variable {behaviors : Behaviors} {o o' o'' : Staged}

theorem Rebound.unique (h : o.Rebound behaviors o') (h' : o.Rebound behaviors o'') : o' = o'' := by
  cases h with
  | component hc =>
      cases h' with
      | component hc' => rw [hc.unique hc']
  | roster l => cases h'; rfl
  | control state => cases h'; rfl
  | simulation r => cases h'; rfl

/-- An object finds its behavior, if it is a component that has one. -/
theorem exists_rebound_iff :
    (∃ o', o.Rebound behaviors o') ↔ ∀ F c, o = component F c → ∃ c', c.Rebound behaviors c' := by
  constructor
  · rintro ⟨o', h⟩ F c rfl
    cases h with
    | component hc => exact ⟨_, hc⟩
  · intro h
    rcases o with ⟨F, c⟩ | ⟨F, l⟩ | state | r
    · obtain ⟨c', hc⟩ := h F c rfl
      exact ⟨_, .component hc⟩
    · exact ⟨_, .roster l⟩
    · exact ⟨_, .control state⟩
    · exact ⟨_, .simulation r⟩

end Staged

namespace Roster

variable {F : Family} {behaviors : Behaviors} {l l' : Roster F}

theorem Revived.map_object (h : l.Revived behaviors l') :
    l'.members.map Component.object = l.members.map Component.object := by
  have hmap : ∀ {cs cs' : List (Component F)}, List.Forall₂ (Component.Rebound behaviors) cs cs' →
      cs'.map Component.object = cs.map Component.object := by
    intro cs cs' hcs
    induction hcs with
    | nil => rfl
    | cons hc _ ih => rw [List.map_cons, List.map_cons, hc.akin.object, ih]
  exact hmap h.members

/-- A list that comes back has the same record. -/
theorem Revived.record_eq (h : l.Revived behaviors l') : l'.record = l.record := by
  have hhead : l'.head?.map Component.object = l.head?.map Component.object := by
    have hlast := congrArg List.getLast? h.map_object
    simpa only [head?, List.getLast?_map] using hlast
  have hsize : l'.size = l.size := h.members.length_eq.symm
  simp only [record, h.object, h.version, hhead, hsize]

theorem Revived.chained (h : l.Revived behaviors l') (hl : l.Chained) : l'.Chained :=
  hl.akin (h.members.imp fun _ _ hc => hc.akin)

end Roster

namespace Simulation

variable {behaviors : Behaviors} {s s' : Simulation}

/-- A simulation that comes back owns the same. -/
theorem Revived.owned_eq (h : s.Revived behaviors s') : s'.owned = s.owned := by
  have hb : s'.boundaries.object = s.boundaries.object := (h.lists .boundary).object
  have hc : s'.collisions.object = s.collisions.object := (h.lists .collision).object
  have he : s'.emitters.object = s.emitters.object := (h.lists .emitter).object
  have hitems : ∀ F, (s'.list F).items = (s.list F).items := by
    intro F
    have hmap := congrArg (List.map fun id : ObjectId => (id, F.tag)) (h.lists F).map_object
    rwa [List.map_map, List.map_map] at hmap
  simp only [owned, inventory, ownItems, h.object, h.controlObject, hb, hc, he, hitems]

theorem Revived.record_eq (h : s.Revived behaviors s') : s'.record = s.record := by
  have hb : s'.boundaries.object = s.boundaries.object := (h.lists .boundary).object
  have hc : s'.collisions.object = s.collisions.object := (h.lists .collision).object
  have he : s'.emitters.object = s.emitters.object := (h.lists .emitter).object
  simp only [record, h.step, h.species, h.field, h.controlObject, hb, hc, he]

/-- Its parts are those of the other with their behaviors looked up again. -/
theorem Revived.exists_part (h : s.Revived behaviors s') {e : ObjectId × Staged} (he : e ∈ s'.parts) :
    ∃ o, (e.1, o) ∈ s.parts ∧ o.Rebound behaviors e.2 := by
  rcases mem_parts.mp he with rfl | rfl | ⟨F, rfl⟩ | ⟨F, c', hc', rfl⟩
  · rw [h.object, h.record_eq]
    exact ⟨_, mem_parts.mpr (.inl rfl), .simulation _⟩
  · rw [h.controlObject, h.control]
    exact ⟨_, mem_parts.mpr (.inr (.inl rfl)), .control _⟩
  · rw [(h.lists F).object, (h.lists F).record_eq]
    exact ⟨_, mem_parts.mpr (.inr (.inr (.inl ⟨F, rfl⟩))), .roster _⟩
  · obtain ⟨c, hc, hr⟩ := exists_of_forall₂ (h.lists F).members hc'
    rw [hr.akin.object]
    exact ⟨_, mem_parts.mpr (.inr (.inr (.inr ⟨F, c, hc, rfl⟩))), .component hr⟩

/-- **A simulation can come back** when the tables have all symbols of its members. -/
theorem exists_revived_iff (s : Simulation) (behaviors : Behaviors) (place : Family → ListInstance) :
    (∃ s', s.Revived behaviors s' ∧ ∀ F, (s'.list F).place = place F) ↔
      ∀ F, ∀ c ∈ (s.list F).members, ∀ b ∈ c.behavior,
        ((behaviors.table F).find? b.symbol).isSome := by
  constructor
  · rintro ⟨s', h, -⟩ F c hc
    exact Component.exists_rebound_iff.mp (exists_forall₂_iff.mp ⟨_, (h.lists F).members⟩ c hc)
  · intro h
    have hlist : ∀ F, ∃ l : Roster F, (s.list F).Revived behaviors l ∧ l.place = place F := by
      intro F
      obtain ⟨cs, hcs⟩ := exists_forall₂_iff.mpr
        fun c hc => Component.exists_rebound_iff.mpr (h F c hc)
      exact ⟨⟨(s.list F).object, place F, cs, (s.list F).version⟩, ⟨rfl, rfl, hcs⟩, rfl⟩
    obtain ⟨boundaries, hb, hpb⟩ := hlist .boundary
    obtain ⟨collisions, hc, hpc⟩ := hlist .collision
    obtain ⟨emitters, he, hpe⟩ := hlist .emitter
    refine ⟨{ s with behaviors, boundaries, collisions, emitters },
      ⟨rfl, rfl, rfl, rfl, rfl, rfl, rfl, rfl, fun F => ?_⟩, fun F => ?_⟩
    · cases F with
      | boundary => exact hb
      | collision => exact hc
      | emitter => exact he
    · cases F with
      | boundary => exact hpb
      | collision => exact hpc
      | emitter => exact hpe

end Simulation

/-! ### What was written, staged again -/

namespace Staged

variable {behaviors : Behaviors} {e : ObjectId × Staged} {slot : ObjectId × Slot Staged}

/-- A slot holds an object with its behavior looked up again. -/
def Slotted (behaviors : Behaviors) (e : ObjectId × Staged) (slot : ObjectId × Slot Staged) :
    Prop :=
  ∃ o, e.2.Rebound behaviors o ∧ slot = (e.1, ⟨e.2.tag, some o⟩)

/-- The item of an object is decoded as that object. -/
theorem item_decodes_iff (hf : e.2.Fresh e.1) (hw : e.2.Writable) :
    (item e).Decodes (decoders behaviors) slot ↔ Slotted behaviors e slot :=
  exists_congr fun _ => and_congr_left fun _ => decodeRecord_ofData hf hw.countable hw.blob hw.fields

end Staged

section Written

variable {behaviors : Behaviors} {s s' : Simulation} {parts : List (ObjectId × Staged)}
  {st : Staging Staged}

/-- **Reading what a simulation has written** stages its parts, whatever follows. -/
theorem Stream.read_written (hs : s.Sound) (hp : s.Ordered parts) {origin : Origin} {bytes : Bytes}
    (hw : Stream.write origin s.registry s.store = .put bytes) (t : Bytes) {h : Header} :
    (∃ rest, read (Staged.decoders behaviors) (bytes ++ t) = .ok (h, st) rest) ↔
      h = s.header origin ∧ List.Forall₂ (Staged.Slotted behaviors) parts st.slots.entries := by
  obtain ⟨hprod, hparts, rfl⟩ := (hs.write_eq_put hp).mp hw
  have hwf := hs.wellformed hp hparts hprod
  have hslots : List.Forall₂ (Item.Decodes (Staged.decoders behaviors)) (parts.map Staged.item)
      st.slots.entries ↔ List.Forall₂ (Staged.Slotted behaviors) parts st.slots.entries := by
    rw [List.forall₂_map_left_iff]
    have hiff : ∀ e ∈ parts, ∀ slot, (Staged.item e).Decodes (Staged.decoders behaviors) slot ↔
        Staged.Slotted behaviors e slot := by
      intro e he slot
      have hm := hp.perm.mem_iff.mp he
      exact Staged.item_decodes_iff (Simulation.fresh_of_mem_parts hm) (hparts e hm)
    exact forall₂_congr hiff
  constructor
  · rintro ⟨rest, hr⟩
    obtain ⟨items, hwf', hd, he⟩ := read_eq_ok.mp hr
    obtain ⟨rfl, rfl⟩ := spell_inj hwf.framed hwf'.framed he
    exact ⟨rfl, hslots.mp hd⟩
  · rintro ⟨rfl, hd⟩
    exact ⟨t, read_eq_ok.mpr ⟨_, hwf, hslots.mpr hd, rfl⟩⟩

/-- The staged identities are those of the parts. -/
theorem Staging.ids_of_slotted
    (h : List.Forall₂ (Staged.Slotted behaviors) parts st.slots.entries) :
    st.ids = parts.map Prod.fst := by
  rw [Staging.ids, OrderedMap.keys]
  generalize st.slots.entries = entries at h
  induction h with
  | nil => rfl
  | cons hs _ ih =>
      obtain ⟨o, -, rfl⟩ := hs
      rw [List.map_cons, List.map_cons, ih]

/-- The staged objects register as the simulation that was written. -/
theorem Staging.registry_of_slotted (hp : s.Ordered parts)
    (h : List.Forall₂ (Staged.Slotted behaviors) parts st.slots.entries) :
    s.registry = st.registry s.registry.cursor := by
  have hentries : s.registry.entries = st.slots.mapValues fun _ slot => slot.tag := by
    refine OrderedMap.ext ?_
    rw [hp.entries]
    show _ = st.slots.entries.map _
    clear hp
    generalize st.slots.entries = entries at h
    induction h with
    | nil => rfl
    | cons hs _ ih =>
        obtain ⟨o, -, rfl⟩ := hs
        rw [List.map_cons, List.map_cons, ih]
  rw [Staging.registry, ← hentries]

/-- A simulation that comes back is held by what was staged. -/
theorem Simulation.Revived.holds (hr : s.Revived behaviors s') (hs : s.Sound) (hp : s.Ordered parts)
    (h : List.Forall₂ (Staged.Slotted behaviors) parts st.slots.entries) : st.Holds s' := by
  refine ⟨fun e he => ?_, ?_, fun F => (hr.lists F).chained (hs.chained F)⟩
  · obtain ⟨o, ho, hb⟩ := hr.exists_part he
    obtain ⟨slot, hslot, o', hb', rfl⟩ :=
      exists_of_forall₂ (List.Forall₂.flip h) (hp.perm.mem_iff.mpr ho)
    rw [hb.unique hb']
    exact Staging.object?_eq_some.mpr ⟨_, hslot⟩
  · rw [Staging.ids_of_slotted h, hr.owned_eq, Simulation.owned_eq_map_parts]
    exact hp.perm.map Prod.fst

/-- Every object that was written is staged when all behaviors are found. -/
theorem Simulation.Sound.exists_slotted (hs : s.Sound) (hp : s.Ordered parts)
    (h : ∀ e ∈ s.parts, ∃ o, e.2.Rebound behaviors o) :
    ∃ st : Staging Staged, List.Forall₂ (Staged.Slotted behaviors) parts st.slots.entries := by
  obtain ⟨slots, hslots⟩ := exists_forall₂_iff (R := Staged.Slotted behaviors).mpr
    fun e he => by
      obtain ⟨o, ho⟩ := h e (hp.perm.mem_iff.mp he)
      exact ⟨_, o, ho, rfl⟩
  -- the identities are those that were written, so no slot is there twice
  have hkeys : slots.map Prod.fst = parts.map Prod.fst := by
    clear hp
    induction hslots with
    | nil => rfl
    | cons hs _ ih =>
        obtain ⟨o, -, rfl⟩ := hs
        rw [List.map_cons, List.map_cons, ih]
  have hn : (slots.map Prod.fst).Nodup := by
    rw [hkeys, (hp.perm.map Prod.fst).nodup_iff, ← Simulation.owned_eq_map_parts]
    exact hs.nodup_owned
  exact ⟨⟨⟨slots, hn⟩⟩, hslots⟩

/-- All parts are found again when the tables have all symbols of the members. -/
theorem Simulation.rebound_parts_iff :
    (∀ e ∈ s.parts, ∃ o, e.2.Rebound behaviors o) ↔
      ∀ F, ∀ c ∈ (s.list F).members, ∀ b ∈ c.behavior,
        ((behaviors.table F).find? b.symbol).isSome := by
  constructor
  · intro h F c hc
    have hm := Simulation.mem_parts.mpr (.inr (.inr (.inr ⟨F, c, hc, rfl⟩)))
    exact Component.exists_rebound_iff.mp (Staged.exists_rebound_iff.mp (h _ hm) F c rfl)
  · intro h e he
    refine Staged.exists_rebound_iff.mpr fun F c hc => Component.exists_rebound_iff.mpr (h F c ?_)
    rcases Simulation.mem_parts.mp he with rfl | rfl | ⟨G, rfl⟩ | ⟨G, c', hm, rfl⟩
    · cases hc
    · cases hc
    · cases hc
    · cases hc
      exact hm

end Written

/-- The places of the next three lists. -/
def InstanceSupply.place (supply : InstanceSupply) : Family → ListInstance
  | .boundary => ⟨supply.next⟩
  | .collision => ⟨supply.next + 1⟩
  | .emitter => ⟨supply.next + 2⟩

/-- **What was written comes back**, whatever follows it, when the ranks agree and the control layer
takes its state: the simulation is the one that was written, with behaviors from the tables at hand
and lists of its own. -/
theorem Host.restore_written {σ τ : Type} {q : Host} {s s' : Simulation} (hs : s.Sound)
    {origin : Origin} {bytes : Bytes} (hw : Stream.write origin s.registry s.store = .put bytes)
    (hrank : origin.rank = q.services.comm.rank) (hworld : origin.world = q.services.comm.world)
    (hidle : q.services.phase = .idle)
    (h₁ : q.services.comm.answer q.services.round true = .ok true)
    (h₂ : q.services.comm.answer (q.services.round + 1) true = .ok true) (t : Bytes)
    {behaviors : Behaviors} {unpickle : Bytes → ControlM σ τ} {layer : σ} {a : τ} :
    (q.restore (.ok (bytes ++ t)) behaviors unpickle layer).result = .ok (s', a) ↔
      s.Revived behaviors s' ∧ (∀ F, (s'.list F).place = q.supply.place F) ∧
        ∃ state, unpickle s'.control ({ (q.setPhase .restore).voted.voted with
          supply := ⟨q.supply.next + 3⟩ }, layer) = .ok a state := by
  obtain ⟨parts, hp⟩ := hs.exists_ordered
  -- whatever is staged from this stream is put together to the one simulation that it holds
  have hconnect : ∀ {st : Staging Staged} {s₁ : Simulation},
      List.Forall₂ (Staged.Slotted behaviors) parts st.slots.entries → st.Fresh →
      s.Revived behaviors s₁ → (∀ F, (s₁.list F).place = q.supply.place F) →
      connectStream behaviors (s.header origin) st q.supply = .ok (s₁, ⟨q.supply.next + 3⟩) :=
    fun hst hf hr hplace => (connectStream_eq_ok hf).mpr ⟨hr.holds hs hp hst,
      hr.registry.trans (Staging.registry_of_slotted hp hst), hr.tables, hplace .boundary,
      hplace .collision, hplace .emitter, rfl⟩
  constructor
  · intro h
    obtain ⟨-, _, header, st, supply, ⟨⟩, hd, -, hc, -, state, hu⟩ := restore_eq_ok.mp h
    obtain ⟨hread, -⟩ := decodeStream_eq_ok.mp hd
    obtain ⟨rest, hr⟩ := hread
    obtain ⟨rfl, hst⟩ := (Stream.read_written hs hp hw t).mp ⟨rest, hr⟩
    have hparts : ∀ e ∈ s.parts, ∃ o, e.2.Rebound behaviors o := by
      intro e he
      obtain ⟨slot, -, o, ho, -⟩ := exists_of_forall₂ (List.Forall₂.flip hst) (hp.perm.mem_iff.mpr he)
      exact ⟨o, ho⟩
    obtain ⟨s₁, hrev, hplace⟩ :=
      (Simulation.exists_revived_iff s behaviors q.supply.place).mpr
        (Simulation.rebound_parts_iff.mp hparts)
    rw [hconnect hst (Stream.decoded_of_read hr).fresh hrev hplace, Except.ok.injEq] at hc
    obtain ⟨rfl, rfl⟩ := Prod.mk.inj hc
    exact ⟨hrev, hplace, state, hu⟩
  · rintro ⟨hrev, hplace, state, hu⟩
    have hparts := Simulation.rebound_parts_iff.mpr
      ((Simulation.exists_revived_iff s behaviors q.supply.place).mp ⟨s', hrev, hplace⟩)
    obtain ⟨st, hst⟩ := hs.exists_slotted hp hparts
    obtain ⟨rest, hr⟩ := (Stream.read_written hs hp hw t).mpr ⟨rfl, hst⟩
    exact restore_eq_ok.mpr ⟨hidle, _, s.header origin, st, _, rfl,
      decodeStream_eq_ok.mpr ⟨⟨rest, hr⟩, hrank, hworld⟩, h₁,
      hconnect hst (Stream.decoded_of_read hr).fresh hrev hplace, h₂, state, hu⟩

end ParticleSim
