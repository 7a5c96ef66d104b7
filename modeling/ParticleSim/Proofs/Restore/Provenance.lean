import ParticleSim.Proofs.Host.Calls
import ParticleSim.Proofs.Restore.RoundTrip

/-!
# Restores — Where the members come from

A restore makes nothing up.  Whatever simulation was written, also one whose registry has wrapped,
each object that is staged from its stream is one of its parts with its behavior looked up again
(`Simulation.exists_part_of_read`).  So each member of a list of the restored simulation was a
member of the same list of the one that was written (`Host.exists_member_of_restore`).
-/

namespace ParticleSim

section Written

variable {s : Simulation} {behaviors : Behaviors} {origin : Origin} {bytes t : Bytes}

/-- **What is staged was written**: an object is a part of the simulation with its behavior looked
up again. -/
theorem Simulation.exists_part_of_read
    (hw : Stream.write origin s.registry s.store = .put bytes) {h : Header} {st : Staging Staged}
    {rest : Bytes}
    (hr : Stream.read (Staged.decoders behaviors) (bytes ++ t) = .ok (h, st) rest) {id : ObjectId}
    {o : Staged} (ho : st.object? id = some o) :
    ∃ o₀, (id, o₀) ∈ s.parts ∧ o₀.Rebound behaviors o := by
  obtain ⟨hproducer, items, hws, hf, rfl⟩ := Stream.write_eq_put.mp hw
  obtain ⟨items', hwf, hd, he⟩ := Stream.read_eq_ok.mp hr
  have hcount : (UInt64.ofNat s.registry.size).toNat ≤ items.length := by
    rw [← hws.length_eq, UInt64.toNat_ofNat']
    exact Nat.mod_le _ _
  obtain ⟨-, hfirst⟩ := Stream.prefix_of_spell hproducer hf hcount hwf.framed he
  -- the object was decoded from an item, and that is what a part has written
  obtain ⟨tag, hslot⟩ := Staging.object?_eq_some.mp ho
  obtain ⟨i, hi, o', hdecode, hslot⟩ := exists_of_forall₂ hd hslot
  cases hslot
  obtain ⟨e, -, hobject, htag, data, hstore, hrecord⟩ :=
    exists_of_forall₂ hws (hfirst.subset hi)
  rw [Simulation.store_eq] at hstore
  obtain ⟨⟨id, o₀⟩, hfind, hlive⟩ := Option.map_eq_some_iff.mp hstore
  have hpart := List.mem_of_find?_eq_some hfind
  have hid : id = i.object := by
    rw [hobject]
    simpa using List.find?_some hfind
  have ho₀ : o₀.tag = i.tag := by
    rw [htag, ← o₀.live_tag, hlive]
  obtain ⟨hcountable, rfl⟩ := Staged.live_data_eq_ok.mp (congrArg LiveObject.data hlive)
  have hfits := hf i (hfirst.subset hi)
  have hblob := hfits.blob
  have hfields := hfits.fields
  rw [hrecord] at hblob hfields hdecode
  rw [← hid, ← ho₀] at hdecode
  exact ⟨o₀, hid ▸ hpart, (Staged.decodeRecord_ofData (Simulation.fresh_of_mem_parts hpart)
    hcountable hblob hfields).mp hdecode⟩

/-- **A restore makes up no member**: it is one of the simulation that was written, with its
behavior looked up again. -/
theorem Host.exists_member_of_restore {σ τ : Type} {q : Host} {s' : Simulation}
    (hw : Stream.write origin s.registry s.store = .put bytes)
    {unpickle : Bytes → ControlM σ τ} {layer : σ} {a : τ}
    (hr : (q.restore (.ok (bytes ++ t)) behaviors unpickle layer).result = .ok (s', a))
    {F : Family} {c' : Component F} (hc : c' ∈ (s'.list F).members) :
    ∃ c ∈ (s.list F).members, c.Rebound behaviors c' := by
  obtain ⟨_, header, st, rest, ⟨⟩, hread, -, hholds, -⟩ := of_restore hr
  have hpart := hholds.parts _ (Simulation.mem_parts.mpr (.inr (.inr (.inr ⟨F, c', hc, rfl⟩))))
  obtain ⟨o₀, hmem, hrebound⟩ := Simulation.exists_part_of_read hw hread hpart
  cases hrebound with
  | @component _ c _ h =>
      rcases Simulation.mem_parts.mp hmem with hp | hp | ⟨G, hp⟩ | ⟨G, c₀, hc₀, hp⟩
      · cases (Prod.mk.inj hp).2
      · cases (Prod.mk.inj hp).2
      · cases (Prod.mk.inj hp).2
      · cases (Prod.mk.inj hp).2
        exact ⟨c, hc₀, h⟩

end Written

namespace Host

variable {σ : Type} {s : Simulation} {n : UInt64}

/-- Within a session a simulation that is written to a file is written to the end. -/
theorem write_of_writeFile {p : Host} {path : String} {pickle : ControlM σ Bytes} {layer : σ}
    (h : (p.writeFile s path pickle layer).result = .ok n) :
    ∃ control origin, Stream.write origin s.registry ({ s with control } : Simulation).store =
      .put (p.writeFile s path pickle layer).output := by
  simp only [writeFile] at h ⊢
  cases hc : p.files.create (partialPath path) with
  | error fault =>
      rw [hc] at h
      cases h
  | ok files =>
      simp only [hc] at h ⊢
      cases hr : { p with files }.writeCheckpoint s none pickle layer with
      | mk result s' output q layer' =>
          simp only [hr] at h ⊢
          cases result with
          | error e => cases h
          | ok m =>
              simp only at h ⊢
              obtain ⟨control, -, rfl, -, hw, -⟩ := writeCheckpoint_eq_ok.mp hr
              refine ⟨control, q.services.origin, ?_⟩
              split at h
              · cases h
              · exact Emission.eq_put_of_within hw

/-- A checkpoint call that succeeds has written the simulation to the end. -/
theorem CheckpointCall.write_of_perform (c : CheckpointCall σ)
    (h : (c.perform s).result = .ok n) :
    ∃ control origin, Stream.write origin s.registry ({ s with control } : Simulation).store =
      .put (c.perform s).output := by
  obtain ⟨p, capacity | path, pickle, layer⟩ := c
  · obtain ⟨control, -, -, -, hw⟩ := write_of_checkpoint h
    exact ⟨control, _, hw⟩
  · simp only [perform, checkpointToPath] at h ⊢
    cases he : p.enter .checkpoint with
    | error e =>
        rw [he] at h
        cases h
    | ok q =>
        rw [he] at h
        exact write_of_writeFile h

end Host

end ParticleSim
