import ParticleSim.Proofs.Restore.Revival
import ParticleSim.Proofs.Simulation.Conserved
import Mathlib.Logic.Relation

/-!
# Restores — What is accepted

A restore accepts a stream, written by whomever, only if its records are one simulation record and
what can be reached from that by references (`Simulation.reaches_of_holds`).  What it makes of them
is a simulation that could have been built: joining its members to empty lists gives its lists, and
writing it and reading it again under the same tables gives it back, in lists of its own
(`Host.restore_accepted`).
-/

namespace ParticleSim

/-! ### References -/

/-- The objects that a staged object refers to. -/
def Staged.references : Staged → List ObjectId
  | component _ c => (Component.linkTarget c.link).toList
  | roster _ l => l.head.toList
  | control _ => []
  | simulation r => [r.control, r.boundaries, r.collisions, r.emitters]

/-- A staged object refers to another. -/
def Staging.Refers (st : Staging Staged) (id target : ObjectId) : Prop :=
  ∃ o, st.object? id = some o ∧ target ∈ o.references

/-- A staged object leads to another by references. -/
def Staging.Reaches (st : Staging Staged) : ObjectId → ObjectId → Prop :=
  Relation.ReflTransGen st.Refers

namespace Simulation

variable {st : Staging Staged} {s : Simulation}

/-- The members of a list are reached from its head on. -/
theorem reaches_member (h : st.Holds s) (F : Family) {c : Component F}
    (hc : c ∈ (s.list F).members) : st.Reaches (s.list F).object c.object := by
  have hrecord := h.parts _ (mem_parts.mpr (.inr (.inr (.inl ⟨F, rfl⟩))))
  have hmember : ∀ c ∈ (s.list F).members, st.object? c.object = some (.component F c) :=
    fun c hc => h.parts _ (mem_parts.mpr (.inr (.inr (.inr ⟨F, c, hc, rfl⟩))))
  have hall : ∀ n i c, (s.list F).members.length = i + 1 + n → (s.list F).members[i]? = some c →
      st.Reaches (s.list F).object c.object := by
    intro n
    induction n with
    | zero =>
        intro i c hlen hi
        have hhead : (s.list F).head? = some c := by
          rw [Roster.head?, List.getLast?_eq_getElem?, hlen]
          exact hi
        refine .single ⟨_, hrecord, ?_⟩
        simp [Staged.references, Roster.record, hhead]
    | succ n ih =>
        intro i c hlen hi
        have hlt : i + 1 < (s.list F).members.length := by omega
        have hnext := List.getElem?_eq_getElem hlt
        have hlink := (h.chained F (i + 1) _ hnext).2
        rw [Roster.nextLink_first_succ hi] at hlink
        refine (ih (i + 1) _ (by omega) hnext).tail ⟨_, hmember _ (List.getElem_mem hlt), ?_⟩
        simp [Staged.references, hlink, Component.linkTarget]
  obtain ⟨i, hi⟩ := List.getElem?_of_mem hc
  have hlt := (List.getElem?_eq_some_iff.mp hi).1
  exact hall ((s.list F).members.length - (i + 1)) i c (by omega) hi

/-- **Everything that is staged is reached from the simulation.** -/
theorem reaches_of_holds (h : st.Holds s) {id : ObjectId} (hid : id ∈ st.ids) :
    st.Reaches s.object id := by
  have hrecord := h.parts _ (mem_parts.mpr (.inl rfl))
  have hlist : ∀ F, st.Reaches s.object (s.list F).object := by
    intro F
    refine .single ⟨_, hrecord, ?_⟩
    cases F <;> simp [Staged.references, record, list]
  have howned := h.ids.mem_iff.mp hid
  rw [owned_eq_map_parts] at howned
  obtain ⟨e, he, rfl⟩ := List.mem_map.mp howned
  rcases mem_parts.mp he with rfl | rfl | ⟨F, rfl⟩ | ⟨F, c, hc, rfl⟩
  · exact .refl
  · exact .single ⟨_, hrecord, by simp [Staged.references, record]⟩
  · exact hlist F
  · exact (hlist F).trans (reaches_member h F hc)

/-- There is no simulation record but that of the simulation. -/
theorem object?_simulation_iff (h : st.Holds s) {id : ObjectId} {r : SimulationRecord} :
    st.object? id = some (.simulation r) ↔ id = s.object ∧ r = s.record := by
  have hrecord := h.parts _ (mem_parts.mpr (.inl rfl))
  constructor
  · intro hr
    have howned := h.ids.mem_iff.mp (Staging.mem_ids_of_object? hr)
    rw [owned_eq_map_parts] at howned
    obtain ⟨e, he, rfl⟩ := List.mem_map.mp howned
    have hobject := h.parts e he
    rw [hr, Option.some.injEq] at hobject
    have hid := object_of_tag_eq he (by rw [← hobject]; rfl)
    rw [hid, hrecord, Option.some.injEq, Staged.simulation.injEq] at hr
    exact ⟨hid, hr.symm⟩
  · rintro ⟨rfl, rfl⟩
    exact hrecord

end Simulation

/-! ### Reading again -/

/-- The same simulation with its lists in other places. -/
def Simulation.moved (s : Simulation) (place : Family → ListInstance) : Simulation :=
  { s with
    boundaries := { s.boundaries with place := place .boundary }
    collisions := { s.collisions with place := place .collision }
    emitters := { s.emitters with place := place .emitter } }

/-- A simulation whose behaviors are those of its tables comes back as it was. -/
theorem Simulation.revived_moved {s : Simulation} {behaviors : Behaviors}
    (hb : s.behaviors = behaviors) (h : ∀ F, ∀ c ∈ (s.list F).members, c.Bound behaviors)
    (place : Family → ListInstance) : s.Revived behaviors (s.moved place) := by
  have hmembers : ∀ F, List.Forall₂ (Component.Rebound behaviors) (s.list F).members
      (s.list F).members :=
    fun F => List.forall₂_same.mpr fun c hc => (h F c hc).rebound_iff.mpr rfl
  refine ⟨rfl, hb, rfl, rfl, rfl, rfl, rfl, rfl, fun F => ?_⟩
  cases F with
  | boundary => exact ⟨rfl, rfl, hmembers .boundary⟩
  | collision => exact ⟨rfl, rfl, hmembers .collision⟩
  | emitter => exact ⟨rfl, rfl, hmembers .emitter⟩

namespace Host

variable {σ τ : Type} {p : Host} {s : Simulation} {layer : σ}

/-- A sound simulation whose parts fit a stream can be written with the control state that it
has. -/
theorem checkpoint_of_writable (hs : s.Sound) (hw : ∀ e ∈ s.parts, e.2.Writable)
    {pickle : ControlM σ Bytes} {state : Host × σ} (hidle : p.services.phase = .idle)
    (hp : pickle (p.setPhase .checkpoint, layer) = .ok s.control state) :
    ∃ bytes, p.checkpoint s none pickle layer =
        ⟨.ok (.ofNat s.registry.size), s, bytes, state.1.leave, state.2⟩ ∧
      Stream.write state.1.services.origin s.registry s.store = .put bytes := by
  obtain ⟨parts, hparts⟩ := hs.exists_ordered
  have hproducer : (Text.encode state.1.services.origin.producer).length < UInt32.size := by
    show (Text.encode "plasma-engine 0.1.9").length < UInt32.size
    decide
  have hput : Stream.write state.1.services.origin s.registry s.store = .put _ :=
    (hs.write_eq_put hparts).mpr ⟨hproducer, hw, rfl⟩
  exact ⟨_, checkpoint_eq_ok.mpr ⟨hidle, s.control, state.1, hp, rfl, rfl, hs.orphans_eq_nil, hput,
    rfl⟩, hput⟩

/-- What is written of a simulation whose behaviors are those of its tables is read as that
simulation. -/
theorem restore_bound (hs : s.Sound)
    (hb : ∀ F, ∀ c ∈ (s.list F).members, c.Bound s.behaviors) {origin : Origin} {bytes : Bytes}
    (hw : Stream.write origin s.registry s.store = .put bytes)
    (hrank : origin.rank = p.services.comm.rank) (hworld : origin.world = p.services.comm.world)
    (hidle : p.services.phase = .idle)
    (hpeers : ∀ round, p.services.comm.answer round true = .ok true) (t : Bytes)
    {unpickle : Bytes → ControlM σ τ}
    (hunpickle : ∀ control state, ∃ a state', unpickle control state = .ok a state') :
    ∃ a, (p.restore (.ok (bytes ++ t)) s.behaviors unpickle layer).result =
      .ok (s.moved p.supply.place, a) := by
  obtain ⟨a, state, hu⟩ := hunpickle (s.moved p.supply.place).control
    ({ (p.setPhase .restore).voted.voted with supply := ⟨p.supply.next + 3⟩ }, layer)
  refine ⟨a, (restore_written hs hw hrank hworld hidle (hpeers _) (hpeers _) t).mpr
    ⟨s.revived_moved rfl hb _, fun F => ?_, state, hu⟩⟩
  cases F <;> rfl

/-- **Whatever a restore accepts is sound.**  The records that it has read are one simulation record
and what that leads to.  The lists are those that their members give when they join empty ones in
the same order: the first is linked to nothing, every other one to the one before, and none is in a
list twice.  All identities are below the cursor.  Written again with the same control state and
read under the same tables, the simulation comes back, in lists of its own. -/
theorem restore_accepted {input : Bytes} {behaviors : Behaviors} {unpickle : Bytes → ControlM σ τ}
    {a : τ} (h : (p.restore (.ok input) behaviors unpickle layer).result = .ok (s, a)) :
    (∃ header st rest, Stream.read (Staged.decoders behaviors) input = .ok (header, st) rest ∧
      (∀ id r, st.object? id = some (.simulation r) ↔ id = s.object ∧ r = s.record) ∧
      (∀ id ∈ st.ids, st.Reaches s.object id) ∧ s.registry = st.registry header.cursor) ∧
    (∀ F, ({ s.list F with members := [] } : Roster F).joinAll
      ((s.list F).members.map Component.detach) = .ok (s.list F)) ∧
    (∀ F c, (s.list F).members[0]? = some c → c.link = some .last) ∧
    (∀ F i c c', (s.list F).members[i]? = some c → (s.list F).members[i + 1]? = some c' →
      c'.link = some (.next c.object)) ∧
    (∀ F, ((s.list F).members.map Component.object).Nodup) ∧ s.owned.Nodup ∧
    (∀ id ∈ s.owned, id.val < s.registry.cursor) ∧
    ∀ (σ₁ : Type) (p₁ : Host) (pickle : ControlM σ₁ Bytes) (layer₁ : σ₁) (state : Host × σ₁),
      p₁.services.phase = .idle → pickle (p₁.setPhase .checkpoint, layer₁) = .ok s.control state →
      (p₁.checkpoint s none pickle layer₁).result = .ok (.ofNat s.registry.size) ∧
      (p₁.checkpoint s none pickle layer₁).simulation = s ∧
      ∀ (σ₂ τ₂ : Type) (q : Host) (unpickle₂ : Bytes → ControlM σ₂ τ₂) (layer₂ : σ₂) (t : Bytes),
        q.services.comm.rank =
          (p₁.checkpoint s none pickle layer₁).host.services.comm.rank →
        q.services.comm.world =
          (p₁.checkpoint s none pickle layer₁).host.services.comm.world →
        q.services.phase = .idle → (∀ round, q.services.comm.answer round true = .ok true) →
        (∀ control state, ∃ a state', unpickle₂ control state = .ok a state') →
        ∃ a₂, (q.restore (.ok ((p₁.checkpoint s none pickle layer₁).output ++ t)) behaviors
          unpickle₂ layer₂).result = .ok (s.moved q.supply.place, a₂) := by
  obtain ⟨bytes, header, st, rest, hbytes, hr, hd, hholds, hreg, rfl⟩ := of_restore h
  cases hbytes
  have hs := restore_sound h
  have hbound : ∀ F, ∀ c ∈ (s.list F).members, c.Bound s.behaviors := fun F c hc =>
    hd.bound _ _ (hholds.parts _ (Simulation.mem_parts.mpr (.inr (.inr (.inr ⟨F, c, hc, rfl⟩)))))
  have hwritable : ∀ e ∈ s.parts, e.2.Writable := fun e he =>
    hd.writable _ _ (hholds.parts e he)
  refine ⟨⟨header, st, rest, hr, fun id r => Simulation.object?_simulation_iff hholds,
    fun id hid => Simulation.reaches_of_holds hholds hid, hreg⟩,
    fun F => (hs.chained F).joinAll_eq (hs.nodup_members F), fun F c hc => ?_,
    fun F i c c' hc hc' => ?_, hs.nodup_members, hs.nodup_owned, fun id hid => ?_, ?_⟩
  · exact (hs.chained F 0 c hc).2
  · rw [(hs.chained F (i + 1) c' hc').2, Roster.nextLink_first_succ hc]
  · exact hs.below id (hs.ids_perm.mem_iff.mpr hid)
  · -- what was read fits a stream, since it has been read from one
    intro σ₁ p₁ pickle layer₁ state hidle hp
    obtain ⟨bytes, hc, hw⟩ := checkpoint_of_writable hs hwritable hidle hp
    rw [hc]
    refine ⟨rfl, rfl, fun σ₂ τ₂ q unpickle₂ layer₂ t hrank hworld hidle hpeers hunpickle => ?_⟩
    exact restore_bound hs hbound hw hrank.symm hworld.symm hidle hpeers t hunpickle

/-- The stream of a simulation with members in every list is accepted, with a byte behind it. -/
theorem restore_accepted_populated :
    ∃ s a, (restore ⟨⟨{}, .alone, .idle, 1⟩, .empty, ⟨3⟩⟩
      (.ok ((Stream.write ⟨"plasma-engine 0.1.9", 0, 1⟩ Simulation.populated.registry
        Simulation.populated.store).bytes ++ [7])) Simulation.populated.behaviors
      (fun control state => .ok control state) ()).result = .ok (s, a) ∧
    (∀ F, (s.list F).members.length = 1) ∧ s.owned.Nodup := by
  have hw : Stream.write ⟨"plasma-engine 0.1.9", 0, 1⟩ Simulation.populated.registry
      Simulation.populated.store = .put _ :=
    Emission.eq_put_iff.mpr ⟨by decide +kernel, rfl⟩
  obtain ⟨a, h⟩ := restore_bound (p := ⟨⟨{}, .alone, .idle, 1⟩, .empty, ⟨3⟩⟩)
    Simulation.reached_populated.sound Simulation.reached_populated.furnished hw rfl rfl rfl
    (fun _ => rfl) [7] (fun control state => ⟨control, state, rfl⟩)
  refine ⟨_, a, h, fun F => ?_, (restore_accepted h).2.2.2.2.2.1⟩
  have hmembers := Simulation.length_members_populated F
  cases F <;> exact hmembers

end Host

end ParticleSim
