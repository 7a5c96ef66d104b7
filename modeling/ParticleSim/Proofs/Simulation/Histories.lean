import ParticleSim.Proofs.Restore.Soundness
import ParticleSim.Proofs.Simulation.Steps
import ParticleSim.Sample

/-!
# Simulation — Histories

A simulation is reached when it is new or restored from something, or when a step leads to it from
one that is reached without wrapping the cursor (`Simulation.Reached`).  Every such simulation is
sound (`Simulation.Reached.sound`).  In particular a checkpoint never meets a registered object that
is not owned or is of another type (`Host.pickle_of_checkpoint`).

* `Simulation.Reached.registry_agrees`: registration, ownership and lookup never differ.
-/

namespace ParticleSim

/-! ### Failures of an output -/

/-- Errors that tell of a registered object that nobody owns, or that is of another type. -/
inductive CheckpointError.Disowns : CheckpointError → Prop where
  | orphaned (ids : List ObjectId) : Disowns (.orphaned ids)
  | registeredAs (id : ObjectId) (tag reported : String) :
      Disowns (.streamFormat (.registeredAs id tag reported))

namespace Emission

variable {e : CheckpointError}

/-- Outputs in sequence fail as one of them does. -/
theorem exists_of_sequence {es : List Emission} (h : (sequence es).failure = some e) :
    ∃ x ∈ es, x.failure = some e := by
  induction es with
  | nil => cases h
  | cons x es ih =>
      rw [sequence, andThen] at h
      split at h
      · exact ⟨x, List.mem_cons_self, h⟩
      · obtain ⟨y, hy, hf⟩ := ih h
        exact ⟨y, List.mem_cons_of_mem x hy, hf⟩

/-- A section fails by its length only. -/
theorem not_disowns_of_sized {part : Bytes} (h : (sized part).failure = some e) :
    ¬ e.Disowns := by
  rw [sized] at h
  split at h
  · cases h
  · cases h
    rintro ⟨⟩

/-- An output that is full fails of itself. -/
theorem failure_of_within {x : Emission} {capacity : Option Nat} (he : e.Disowns)
    (h : (x.within capacity).failure = some e) : x.failure = some e := by
  cases capacity with
  | none => exact h
  | some n =>
      rw [within] at h
      split at h
      · exact h
      · cases h
        cases he

end Emission

namespace Stream

variable {e : CheckpointError} {store : Store}

theorem not_disowns_of_header {h : Header} (hf : (header h).failure = some e) : ¬ e.Disowns := by
  obtain ⟨x, hx, hf⟩ := Emission.exists_of_sequence hf
  simp only [List.mem_cons, List.not_mem_nil, or_false] at hx
  rcases hx with rfl | rfl | rfl
  · cases hf
  · exact Emission.not_disowns_of_sized hf
  · cases hf

theorem not_disowns_of_record {id : ObjectId} {tag : String} {r : Record}
    (hf : (record id tag r).failure = some e) : ¬ e.Disowns := by
  obtain ⟨x, hx, hf⟩ := Emission.exists_of_sequence hf
  simp only [List.mem_cons, List.not_mem_nil, or_false] at hx
  rcases hx with rfl | rfl | rfl | rfl
  · cases hf
  · exact Emission.not_disowns_of_sized hf
  · exact Emission.not_disowns_of_sized hf
  · exact Emission.not_disowns_of_sized hf

/-- The record of an object that is found under its tag fails as its data do. -/
theorem data_of_entry {id : ObjectId} {tag : String}
    (ht : (store id).map LiveObject.tag = some tag) (he : e.Disowns)
    (hf : (entry store id tag).failure = some e) :
    ∃ o, store id = some o ∧ o.data = .error e := by
  obtain ⟨o, ho, rfl⟩ := Option.map_eq_some_iff.mp ht
  simp only [entry, ho, ne_eq, not_true_eq_false, if_false] at hf
  split at hf
  · next hd =>
    cases hf
    exact ⟨o, ho, hd⟩
  · exact absurd he (not_disowns_of_record hf)

/-- A stream of objects that are all found under their tags fails as the data of one of them. -/
theorem data_of_write {origin : Origin} {registry : Registry}
    (ht : ∀ id ∈ registry.ids, (store id).map LiveObject.tag = registry.tag? id) (he : e.Disowns)
    (hf : (write origin registry store).failure = some e) :
    ∃ id o, store id = some o ∧ o.data = .error e := by
  obtain ⟨x, hx, hf⟩ := Emission.exists_of_sequence hf
  simp only [List.mem_cons, List.not_mem_nil, or_false] at hx
  rcases hx with rfl | rfl | rfl
  · exact absurd he (not_disowns_of_header hf)
  · obtain ⟨y, hy, hf⟩ := Emission.exists_of_sequence hf
    obtain ⟨entry, hm, rfl⟩ := List.mem_map.mp hy
    have htag : registry.tag? entry.1 = some entry.2 := OrderedMap.find?_eq_some.mpr hm
    have hfound := (ht entry.1 (List.mem_map_of_mem hm)).trans htag
    exact ⟨entry.1, data_of_entry hfound he hf⟩
  · cases hf

end Stream

/-! ### Checkpoints of a sound simulation -/

namespace Simulation

variable {s : Simulation}

/-- An object of a simulation can always be written, but for the number of species. -/
theorem error_of_store {id : ObjectId} {o : LiveObject} {e : CheckpointError}
    (ho : s.store id = some o) (hd : o.data = .error e) : e = .streamFormat .tooManySpecies := by
  rw [store_eq] at ho
  obtain ⟨⟨_, part⟩, -, rfl⟩ := Option.map_eq_some_iff.mp ho
  rcases part with ⟨F, c⟩ | ⟨F, l⟩ | state | r
  · cases hd
  · cases hd
  · cases hd
  · simp only [Staged.live] at hd
    split at hd
    · cases hd
    · cases hd
      rfl

end Simulation

namespace Host

variable {σ : Type} {p : Host} {s : Simulation} {capacity : Option Nat} {pickle : ControlM σ Bytes}
  {layer : σ} {e : CheckpointError}

/-- **A checkpoint of a sound simulation does not disown anything**; only the control layer can say
so. -/
theorem pickle_of_writeCheckpoint (hs : s.Sound) (he : e.Disowns)
    (h : (p.writeCheckpoint s capacity pickle layer).result = .error e) :
    ∃ state, pickle (p, layer) = .error e state := by
  rw [writeCheckpoint] at h
  cases hp : pickle (p, layer) with
  | error e' state =>
      rw [hp] at h
      cases h
      exact ⟨state, rfl⟩
  | ok control state =>
      have hs' : ({ s with control } : Simulation).Sound := hs.retuned (s.withControl_retuned control)
      simp only [hp, hs'.orphans_eq_nil] at h
      split at h
      · next e' hf =>
        cases h
        obtain ⟨id, o, ho, hd⟩ := Stream.data_of_write (fun id _ => (hs'.tag?_eq id).symm) he
          (Emission.failure_of_within he hf)
        rw [Simulation.error_of_store ho hd] at he
        cases he
      · cases h

theorem pickle_of_checkpoint (hs : s.Sound) (he : e.Disowns)
    (h : (p.checkpoint s capacity pickle layer).result = .error e) :
    ∃ state state', pickle state = .error e state' := by
  rw [checkpoint] at h
  cases hp : p.enter .checkpoint with
  | error e' =>
      rw [hp] at h
      cases h
      rw [enter] at hp
      split at hp <;> cases hp
      cases he
  | ok p' =>
      rw [hp] at h
      exact ⟨_, pickle_of_writeCheckpoint hs he h⟩

theorem pickle_of_writeFile {path : String} (hs : s.Sound) (he : e.Disowns)
    (h : (p.writeFile s path pickle layer).result = .error e) :
    ∃ state state', pickle state = .error e state' := by
  simp only [writeFile] at h
  split at h
  · cases h
    cases he
  · split at h
    · next hw => exact ⟨_, pickle_of_writeCheckpoint hs he h⟩
    · split at h
      · cases h
        cases he
      · next hw _ _ _ =>
        rw [hw] at h
        cases h

theorem pickle_of_checkpointToPath {path : String} (hs : s.Sound) (he : e.Disowns)
    (h : (p.checkpointToPath s path pickle layer).result = .error e) :
    ∃ state state', pickle state = .error e state' := by
  rw [checkpointToPath] at h
  cases hp : p.enter .checkpoint with
  | error e' =>
      rw [hp] at h
      cases h
      rw [enter] at hp
      split at hp <;> cases hp
      cases he
  | ok p' =>
      rw [hp] at h
      exact pickle_of_writeFile hs he h

end Host

/-! ### Histories -/

namespace Simulation

variable {s s' : Simulation}

/-- The simulations that there can be: new ones, restored ones, and what steps make of them as long
as the cursor does not wrap. -/
inductive Reached : Simulation → Prop where
  | new (behaviors : Behaviors) (supply : InstanceSupply) : Reached (new behaviors supply).1
  | restored {σ τ : Type} {s : Simulation} (p : Host) (input : Except CheckpointError Bytes)
      (behaviors : Behaviors) (unpickle : Bytes → ControlM σ τ) (layer : σ) (a : τ)
      (result : (p.restore input behaviors unpickle layer).result = .ok (s, a)) : Reached s
  | step {s s' : Simulation} (before : Reached s) (step : s.Step s')
      (cursor : s.registry.cursor ≤ s'.registry.cursor) : Reached s'

/-- **Every simulation that there can be is sound.** -/
theorem Reached.sound (h : Reached s) : s.Sound := by
  induction h with
  | new behaviors supply => exact new_sound behaviors supply
  | restored p input behaviors unpickle layer a result => exact Host.restore_sound result
  | step before step cursor ih => exact step.sound ih cursor

/-- **Registration, ownership and lookup agree** in every simulation that there can be.  The
registered identities are those of the control state, the simulation, the lists and their members,
all different; an identity is found under the tag it is registered under, or not at all.  So there
are never orphans, no definition is refused because its component is in a list already, and no
checkpoint disowns anything unless the control layer has done so. -/
theorem Reached.registry_agrees (h : Reached s) :
    s.registry.ids.Nodup ∧ (∀ id ∈ s.registry.ids, id.val < s.registry.cursor) ∧
      s.registry.ids.Perm
        ([s.controlObject, s.object, s.boundaries.object, s.collisions.object, s.emitters.object] ++
          (s.boundaries.members.map Component.object ++
            (s.collisions.members.map Component.object ++
              s.emitters.members.map Component.object))) ∧
      (∀ id, s.registry.tag? id = (s.store id).map LiveObject.tag) ∧
      (∀ id, id ∉ s.registry.ids → s.store id = none) ∧ s.orphans = [] ∧
      (∀ F name kind params symbol name' s',
        define F name kind params symbol s ≠ .error (.alreadyLinked name') s') ∧
      (∀ name kind params symbol voxels name' s',
        defineEmitter name kind params symbol voxels s ≠ .error (.alreadyLinked name') s') ∧
      (∀ (F : Family) (r : Recipe F), r.Stock →
        ∀ name s', r.build s ≠ .error (.alreadyLinked name) s') ∧
      (∀ (σ : Type) (p : Host) (capacity : Option Nat) (pickle : ControlM σ Bytes) (layer : σ)
        (e : CheckpointError), e.Disowns →
        (p.checkpoint s capacity pickle layer).result = .error e →
          ∃ state state', pickle state = .error e state') ∧
      ∀ (σ : Type) (p : Host) (path : String) (pickle : ControlM σ Bytes) (layer : σ)
        (e : CheckpointError), e.Disowns →
        (p.checkpointToPath s path pickle layer).result = .error e →
          ∃ state state', pickle state = .error e state' := by
  have hs := h.sound
  -- the same identities, in the order in which they are written here
  have hperm : s.owned.Perm
      ([s.controlObject, s.object, s.boundaries.object, s.collisions.object, s.emitters.object] ++
        (s.boundaries.members.map Component.object ++
          (s.collisions.members.map Component.object ++
            s.emitters.members.map Component.object))) := by
    simp only [owned, inventory, ownItems, Family.all, List.flatMap_cons, List.flatMap_nil, list,
      List.append_nil, List.map_append, List.map_cons, List.map_nil, Roster.map_fst_items]
    exact List.Perm.swap ..
  refine ⟨s.registry.nodup_ids, hs.below, hs.ids_perm.trans hperm, hs.tag?_eq, fun id hid => ?_,
    hs.orphans_eq_nil, fun F name kind params symbol => ?_, fun name kind params symbol voxels => ?_,
    fun F r hr => hr.tame.unlinked s hs, fun σ p capacity pickle layer e he => ?_,
    fun σ p path pickle layer e he => ?_⟩
  · have hsome := hs.isSome_store id
    rwa [← Registry.contains_iff, ← hsome, Bool.not_eq_true, Option.isSome_eq_false_iff,
      Option.isNone_iff_eq_none] at hid
  · exact (SimulationM.tame_define F name kind params symbol).unlinked s hs
  · exact (SimulationM.tame_defineEmitter name kind params symbol voxels).unlinked s hs
  · exact Host.pickle_of_checkpoint hs he
  · exact Host.pickle_of_checkpointToPath hs he

/-- A boundary condition is defined in a new simulation, and its list is torn down again. -/
theorem Reached.registry_agrees_clearList :
    (((define .boundary "wall" BoundaryKind.absorb BoundaryParams.none none).leaves
      (Simulation.new .builtin ⟨0⟩).1).clearList .boundary).orphans = [] :=
  (registry_agrees (((Reached.new .builtin ⟨0⟩).step
    (.define .boundary "wall" BoundaryKind.absorb BoundaryParams.none none) (by decide)).step
      (.clearList .boundary) (by decide))).2.2.2.2.2.1

/-- Two species, a boundary condition that counts for each of them, a collision operator and an
emitter. -/
def populated : Simulation :=
  let s := (new Sample.behaviors ⟨0⟩).1
  let s := (defineSpecies "electron" ⟨0xBF800000⟩ ⟨0x3F800000⟩).leaves s
  let s := (defineSpecies "ion" ⟨0x3F800000⟩ ⟨0x44E58000⟩).leaves s
  let s := (Recipe.tallying "wall").build.leaves s
  let s := (Recipe.colliding "drag" .langevin "drag" [0]).build.leaves s
  (Recipe.emitting "cathode" .user "inject" [] (some 3)).build.leaves s

theorem reached_populated : populated.Reached :=
  (((((Reached.new Sample.behaviors ⟨0⟩).step
    (.defineSpecies "electron" _ _) (by decide +kernel)).step
    (.defineSpecies "ion" _ _) (by decide +kernel)).step
    (.recipe (.tallying "wall") (.tallying _)) (by decide +kernel)).step
    (.recipe (.colliding "drag" .langevin "drag" [0]) (.colliding ..)) (by decide +kernel)).step
    (.recipe (.emitting "cathode" .user "inject" [] (some 3)) (.emitting ..)) (by decide +kernel)

theorem length_members_populated (F : Family) : (populated.list F).members.length = 1 := by
  cases F <;> decide +kernel

end Simulation

end ParticleSim
