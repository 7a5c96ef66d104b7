import ParticleSim.Proofs.Host.Sessions
import ParticleSim.Proofs.Simulation.Writing

/-!
# Restores — Soundness

Nothing is assumed of the bytes that a restore reads.  What is staged when a stream could be read is
fresh from its records, below the cursor, bound to the tables at hand and writable again
(`Staging.Decoded`); and a simulation that was put together from it is sound (`Host.restore_sound`).
-/

namespace ParticleSim

/-! ### What a stream stages -/

/-- Staged objects as a reader leaves them. -/
structure Staging.Decoded (behaviors : Behaviors) (cursor : UInt64) (st : Staging Staged) :
    Prop where
  fresh : st.Fresh
  below : ∀ id ∈ st.ids, id.val < cursor
  bound : ∀ id o, st.object? id = some o → o.Bound behaviors
  writable : ∀ id o, st.object? id = some o → o.Writable

/-- Every slot comes from a record below the cursor. -/
theorem Stream.slot_of_read {α : Type} {decoders : Decoders α} {input rest : Bytes} {h : Header}
    {st : Staging α} (hr : read decoders input = .ok (h, st) rest) {e : ObjectId × Slot α}
    (he : e ∈ st.slots.entries) :
    ∃ i : Item, i.Fits ∧ i.object.val < h.cursor ∧ i.Decodes decoders e := by
  obtain ⟨items, hw, hd, -⟩ := read_eq_ok.mp hr
  obtain ⟨i, hi, hd⟩ := exists_of_forall₂ hd he
  exact ⟨i, hw.fits i hi, hw.below i hi, hd⟩

/-- **Whatever a stream is, what it stages is decoded.** -/
theorem Stream.decoded_of_read {behaviors : Behaviors} {input rest : Bytes} {h : Header}
    {st : Staging Staged} (hr : read (Staged.decoders behaviors) input = .ok (h, st) rest) :
    st.Decoded behaviors h.cursor := by
  have hslot : ∀ e ∈ st.slots.entries, ∃ o : Staged, e.2 = ⟨o.tag, some o⟩ ∧ o.Fresh e.1 ∧
      e.1.val < h.cursor ∧ o.Bound behaviors ∧ o.Writable := by
    intro e he
    obtain ⟨i, hf, hlt, o, ho, rfl⟩ := slot_of_read hr he
    obtain ⟨ht, hfresh, hbound, hn, hb, hfl⟩ := Staged.of_decodeRecord ho
    exact ⟨o, by rw [ht], hfresh, hlt, hbound, hn, hb ▸ hf.blob, hfl ▸ hf.fields⟩
  have hobject : ∀ id o, st.object? id = some o → o.Bound behaviors ∧ o.Writable := by
    intro id o ho
    obtain ⟨tag, hm⟩ := Staging.object?_eq_some.mp ho
    obtain ⟨o', hs, -, -, hb, hw⟩ := hslot _ hm
    simp only [Slot.mk.injEq, Option.some.injEq] at hs
    exact hs.2 ▸ ⟨hb, hw⟩
  refine ⟨fun e he => ?_, fun id hid => ?_, fun id o ho => (hobject id o ho).1,
    fun id o ho => (hobject id o ho).2⟩
  · obtain ⟨o, hs, hfresh, -⟩ := hslot e he
    exact ⟨o, hs, hfresh⟩
  · obtain ⟨e, he, rfl⟩ := List.mem_map.mp hid
    obtain ⟨o, -, -, hlt, -⟩ := hslot e he
    exact hlt

/-! ### What is put together -/

section Held

variable {behaviors : Behaviors} {cursor : UInt64} {st : Staging Staged} {s : Simulation}

/-- The parts of a simulation that is held are registered under their tags. -/
theorem Staging.Holds.tag?_iff (h : st.Holds s) (hf : st.Fresh) {id : ObjectId} {tag : String} :
    st.tag? id = some tag ↔ (id, tag) ∈ s.inventory := by
  rw [Simulation.inventory_eq_map_parts, List.mem_map]
  constructor
  · intro ht
    obtain ⟨slot, hslot, -⟩ := Option.map_eq_some_iff.mp ht
    have hid := h.ids.mem_iff.mp (OrderedMap.mem_keys_of_mem (OrderedMap.find?_eq_some.mp hslot))
    rw [Simulation.owned_eq_map_parts] at hid
    obtain ⟨e, he, rfl⟩ := List.mem_map.mp hid
    rw [hf.tag? (h.parts e he), Option.some.injEq] at ht
    exact ⟨e, he, by rw [ht]⟩
  · rintro ⟨e, he, hid⟩
    obtain ⟨rfl, rfl⟩ := Prod.mk.inj hid
    exact hf.tag? (h.parts e he)

/-- A simulation that is held by a decoded table is sound. -/
theorem Staging.Holds.sound (h : st.Holds s) (hd : st.Decoded behaviors cursor)
    (hr : s.registry = st.registry cursor) : s.Sound := by
  have hids : s.registry.ids = st.ids := by
    rw [hr]
    exact OrderedMap.keys_mapValues ..
  have howned : s.owned.Nodup := h.ids.nodup st.slots.nodup
  refine ⟨?_, ?_, h.chained⟩
  · refine (List.perm_ext_iff_of_nodup (List.Nodup.of_map Prod.fst s.registry.nodup_ids)
      (List.Nodup.of_map Prod.fst howned)).mpr fun e => ?_
    rw [← OrderedMap.find?_eq_some, ← h.tag?_iff hd.fresh, hr]
    show (st.slots.mapValues _).find? e.1 = some e.2 ↔ _
    rw [OrderedMap.find?_mapValues]
    rfl
  · intro id hid
    rw [hids] at hid
    rw [hr]
    exact hd.below id hid

end Held

namespace Host

variable {σ τ : Type} {p : Host} {s : Simulation} {layer : σ}

/-- What a restore has put together, and from what. -/
theorem of_restore {input : Except CheckpointError Bytes} {behaviors : Behaviors}
    {unpickle : Bytes → ControlM σ τ} {a : τ}
    (h : (p.restore input behaviors unpickle layer).result = .ok (s, a)) :
    ∃ bytes header st rest, input = .ok bytes ∧
      Stream.read (Staged.decoders behaviors) bytes = .ok (header, st) rest ∧
      st.Decoded behaviors header.cursor ∧ st.Holds s ∧
      s.registry = st.registry header.cursor ∧ s.behaviors = behaviors := by
  obtain ⟨-, bytes, header, st, supply, hb, hd, -, hc, -⟩ := restore_eq_ok.mp h
  obtain ⟨⟨rest, hr⟩, -⟩ := decodeStream_eq_ok.mp hd
  have hdecoded := Stream.decoded_of_read hr
  obtain ⟨hholds, hreg, hbeh, -⟩ := (connectStream_eq_ok hdecoded.fresh).mp hc
  exact ⟨bytes, header, st, rest, hb, hr, hdecoded, hholds, hreg, hbeh⟩

/-- **A restored simulation is sound**, whatever it was read from. -/
theorem restore_sound {input : Except CheckpointError Bytes} {behaviors : Behaviors}
    {unpickle : Bytes → ControlM σ τ} {a : τ}
    (h : (p.restore input behaviors unpickle layer).result = .ok (s, a)) : s.Sound := by
  obtain ⟨_, _, _, _, -, -, hd, hholds, hr, -⟩ := of_restore h
  exact hholds.sound hd hr

end Host

end ParticleSim
