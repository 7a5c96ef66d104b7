import ParticleSim.Proofs.Restore.Staged

/-!
# Simulation — Its parts

The parts of a simulation are its own record, its control state, its lists and their members, each
as it would be staged (`Simulation.parts`).  A checkpoint sees nothing else of a simulation: the
live object of an identity is the part that has it (`Simulation.store_eq`).
-/

namespace ParticleSim

namespace Roster

variable {F : Family}

/-- The record that a list writes. -/
def record (l : Roster F) : RosterRecord F :=
  ⟨l.object, .ofNat l.size, l.version, l.head?.map Component.object, []⟩

/-- The members as staged objects. -/
def parts (l : Roster F) : List (ObjectId × Staged) :=
  l.members.map fun c => (c.object, .component F c)

/-- The live object of a member is its part. -/
theorem map_get?_live (l : Roster F) (id : ObjectId) :
    (l.get? id).map Component.live =
      (l.parts.find? fun e => e.1 = id).map fun e => e.2.live := by
  rw [get?, parts]
  induction l.members with
  | nil => rfl
  | cons c cs ih =>
      by_cases h : c.object = id
      · simp [h, Component.live, Staged.live, Staged.tag, Staged.data]
      · rw [List.find?_cons_of_neg (by simpa using h), ih, List.map_cons,
          List.find?_cons_of_neg (by simpa using h)]

end Roster

namespace Simulation

variable {s : Simulation} {e : ObjectId × Staged}

/-- The record that a simulation writes. -/
def record (s : Simulation) : SimulationRecord :=
  ⟨s.step, s.species, s.field, s.controlObject, s.boundaries.object, s.collisions.object,
    s.emitters.object⟩

/-- The simulation, its control state and its lists as staged objects. -/
def ownParts (s : Simulation) : List (ObjectId × Staged) :=
  [(s.object, .simulation s.record), (s.controlObject, .control s.control),
    (s.boundaries.object, .roster .boundary s.boundaries.record),
    (s.collisions.object, .roster .collision s.collisions.record),
    (s.emitters.object, .roster .emitter s.emitters.record)]

/-- What a simulation owns, as staged objects. -/
def parts (s : Simulation) : List (ObjectId × Staged) :=
  s.ownParts ++ Family.all.flatMap fun F => (s.list F).parts

theorem mem_parts :
    e ∈ s.parts ↔
      e = (s.object, .simulation s.record) ∨ e = (s.controlObject, .control s.control) ∨
        (∃ F, e = ((s.list F).object, .roster F (s.list F).record)) ∨
        ∃ F, ∃ c ∈ (s.list F).members, e = (c.object, .component F c) := by
  have hlists : (∃ F, e = ((s.list F).object, .roster F (s.list F).record)) ↔
      e = (s.boundaries.object, .roster .boundary s.boundaries.record) ∨
        e = (s.collisions.object, .roster .collision s.collisions.record) ∨
        e = (s.emitters.object, .roster .emitter s.emitters.record) := by
    constructor
    · rintro ⟨F, h⟩
      cases F with
      | boundary => exact .inl h
      | collision => exact .inr (.inl h)
      | emitter => exact .inr (.inr h)
    · rintro (h | h | h)
      · exact ⟨.boundary, h⟩
      · exact ⟨.collision, h⟩
      · exact ⟨.emitter, h⟩
  have hmembers : (e ∈ Family.all.flatMap fun F => (s.list F).parts) ↔
      ∃ F, ∃ c ∈ (s.list F).members, e = (c.object, .component F c) := by
    rw [List.mem_flatMap]
    constructor
    · rintro ⟨F, -, h⟩
      obtain ⟨c, hc, rfl⟩ := List.mem_map.mp h
      exact ⟨F, c, hc, rfl⟩
    · rintro ⟨F, c, hc, rfl⟩
      exact ⟨F, by cases F <;> simp [Family.all], List.mem_map.mpr ⟨c, hc, rfl⟩⟩
  rw [parts, List.mem_append, hmembers, hlists]
  simp only [ownParts, List.mem_cons, List.not_mem_nil, or_false, or_assoc]

/-- The parts are fresh. -/
theorem fresh_of_mem_parts (h : e ∈ s.parts) : e.2.Fresh e.1 := by
  rcases mem_parts.mp h with rfl | rfl | ⟨F, rfl⟩ | ⟨F, c, -, rfl⟩
  · trivial
  · trivial
  · exact ⟨rfl, rfl⟩
  · rfl

/-- A part with the tag of a simulation is the simulation itself. -/
theorem object_of_tag_eq (h : e ∈ s.parts) (ht : e.2.tag = simulationTag) : e.1 = s.object := by
  obtain ⟨r, hr⟩ := Staged.tag_eq_simulationTag.mp ht
  rcases mem_parts.mp h with rfl | rfl | ⟨F, rfl⟩ | ⟨F, c, -, rfl⟩
  · rfl
  · cases hr
  · cases hr
  · cases hr

/-! ### Lookup -/

/-- A simulation writes the data of its record, unless it has too many species. -/
theorem live_record (s : Simulation) :
    (⟨simulationTag, s.data⟩ : LiveObject) = (Staged.simulation s.record).live := by
  rw [Staged.live, data]
  simp only [LiveObject.mk.injEq, true_and]
  refine if_congr Iff.rfl ?_ rfl
  cases hf : s.field <;> simp [SimulationRecord.data, SimulationRecord.fieldData, record, hf]

/-- A comparison with one identity more looks at one part more. -/
theorem map_live_cons {id k : ObjectId} {o : Staged} {live : LiveObject} {found : Option LiveObject}
    {parts : List (ObjectId × Staged)} (ho : live = o.live)
    (h : found = (parts.find? fun e => e.1 = id).map fun e => e.2.live) :
    (if id = k then some live else found) =
      (((k, o) :: parts).find? fun e => e.1 = id).map fun e => e.2.live := by
  by_cases hk : id = k
  · simp [hk, ho]
  · rw [if_neg hk, h, List.find?_cons_of_neg (by simpa using Ne.symm hk)]

/-- **The live object of an identity is the part that has it.** -/
theorem store_eq (s : Simulation) (id : ObjectId) :
    s.store id = (s.parts.find? fun e => e.1 = id).map fun e => e.2.live := by
  have hmembers : (((s.boundaries.get? id).map Component.live).or
      (((s.collisions.get? id).map Component.live).or
        ((s.emitters.get? id).map Component.live))) =
      ((Family.all.flatMap fun F => (s.list F).parts).find? fun e => e.1 = id).map
        fun e => e.2.live := by
    simp only [Family.all, List.flatMap_cons, List.flatMap_nil, List.append_nil, List.find?_append,
      Option.map_or, Roster.map_get?_live]
    rfl
  exact map_live_cons s.live_record (map_live_cons rfl (map_live_cons rfl (map_live_cons rfl
    (map_live_cons rfl hmembers))))

end Simulation

end ParticleSim
