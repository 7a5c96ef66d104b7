import ParticleSim.Host.Session
import ParticleSim.Proofs.Simulation.Operations

/-!
# Simulation — Steps

A simulation changes by definitions, by stock recipes, by hits and steps in time, by teardowns, by
checkpoints, which leave the control state in it, and by changes of its species and of the
parameters of members (`Simulation.Step`).  A step may fail; what it leaves behind is a step all the
same.

* `Simulation.new_sound`: a new simulation is sound.
* `Simulation.Step.sound`: a step leaves a sound simulation sound as long as the cursor does not
  wrap.
-/

namespace ParticleSim

/-! ### Stock recipes -/

/-- The recipes that the library offers. -/
inductive Recipe.Stock : {F : Family} → Recipe F → Prop where
  | reflecting (name : String) : Stock (reflecting name)
  | absorbing (name : String) : Stock (absorbing name)
  | refluxing (name : String) (parallel perpendicular : OrderedMap String Real32) :
      Stock (refluxing name parallel perpendicular)
  | tallying (name : String) : Stock (tallying name)
  | colliding (name : String) (kind : CollisionKind) (symbol : Option String) (params : Bytes) :
      Stock (colliding name kind symbol params)
  | emitting (name : String) (kind : EmitterKind) (symbol : Option String) (state : Bytes)
      (voxels : Option Nat) : Stock (emitting name kind symbol state voxels)

namespace SimulationM

/-- A look for the name of a new member. -/
theorem Tame.requireNew {β : Type} {next : Unit → SimulationM β} (F : Family) (name : String)
    (hn : ∀ a, Tame (next a)) : Tame (Recipe.requireNew F name >>= next) := by
  refine Tame.require (fun s name' => ?_) hn
  rw [Roster.requireNew]
  split <;> simp

theorem Tame.requireSpecies {β : Type} {next : Unit → SimulationM β} (name : String)
    (hn : ∀ a, Tame (next a)) : Tame (Recipe.requireSpecies name >>= next) := by
  refine Tame.require (fun s name' => ?_) hn
  split <;> simp

/-- A traversal that fails has failed at one of its elements. -/
theorem exists_of_mapM_error {ε α β : Type} {f : α → Except ε β} {l : List α} {e : ε}
    (h : l.mapM f = .error e) : ∃ a ∈ l, f a = .error e := by
  induction l with
  | nil => cases h
  | cons a l ih =>
      rw [List.mapM_cons] at h
      cases ha : f a with
      | error e' =>
          rw [ha] at h
          cases h
          exact ⟨a, List.mem_cons_self, ha⟩
      | ok b =>
          cases hl : l.mapM f with
          | error e' =>
              rw [ha, hl] at h
              cases h
              obtain ⟨a', ha', hf⟩ := ih hl
              exact ⟨a', List.mem_cons_of_mem a ha', hf⟩
          | ok bs => rw [ha, hl] at h; cases h

/-- Missing speeds are a fault of the configuration. -/
theorem thermalSpeeds_ne_alreadyLinked (speeds : OrderedMap String Real32)
    (missing : String → ConfigurationFault) (species : SpeciesList) (name : String) :
    Recipe.thermalSpeeds speeds missing species ≠ .error (.alreadyLinked name) := by
  intro h
  obtain ⟨n, -, hn⟩ := exists_of_mapM_error h
  split at hn <;> cases hn

end SimulationM

theorem Recipe.Stock.tame {F : Family} {r : Recipe F} (h : r.Stock) : SimulationM.Tame r.build := by
  cases h with
  | reflecting name => exact .requireNew _ _ fun _ => SimulationM.tame_define ..
  | absorbing name => exact .requireNew _ _ fun _ => SimulationM.tame_define ..
  | refluxing name parallel perpendicular =>
      refine .requireSpecies _ fun _ => .require (fun s name' => ?_) fun _ =>
        .require (fun s name' => ?_) fun _ => .requireNew _ _ fun _ => SimulationM.tame_define ..
      · exact SimulationM.thermalSpeeds_ne_alreadyLinked _ _ _ name'
      · exact SimulationM.thermalSpeeds_ne_alreadyLinked _ _ _ name'
  | tallying name =>
      exact .requireSpecies _ fun _ => .requireNew _ _ fun _ => .get fun _ =>
        SimulationM.tame_define ..
  | colliding name kind symbol params => exact .requireNew _ _ fun _ => SimulationM.tame_define ..
  | emitting name kind symbol state voxels =>
      exact .requireNew _ _ fun _ => SimulationM.tame_defineEmitter ..

/-! ### Checkpoints -/

namespace Host

variable {σ : Type}

/-- A checkpoint changes the control state of a simulation, or nothing. -/
theorem writeCheckpoint_simulation (p : Host) (s : Simulation) (capacity : Option Nat)
    (pickle : ControlM σ Bytes) (layer : σ) :
    ∃ control, (p.writeCheckpoint s capacity pickle layer).simulation = { s with control } := by
  rw [writeCheckpoint]
  split
  · exact ⟨s.control, rfl⟩
  · next control _ _ _ =>
    refine ⟨control, ?_⟩
    simp only
    split <;> rfl

theorem checkpoint_simulation (p : Host) (s : Simulation) (capacity : Option Nat)
    (pickle : ControlM σ Bytes) (layer : σ) :
    ∃ control, (p.checkpoint s capacity pickle layer).simulation = { s with control } := by
  rw [checkpoint]
  split
  · exact ⟨s.control, rfl⟩
  · exact writeCheckpoint_simulation ..

theorem checkpointToPath_simulation (p : Host) (s : Simulation) (path : String)
    (pickle : ControlM σ Bytes) (layer : σ) :
    ∃ control, (p.checkpointToPath s path pickle layer).simulation = { s with control } := by
  rw [checkpointToPath]
  split
  · exact ⟨s.control, rfl⟩
  · next p' _ =>
    simp only [writeFile]
    split
    · exact ⟨s.control, rfl⟩
    · next files _ =>
      obtain ⟨control, h⟩ := writeCheckpoint_simulation { p' with files } s none pickle layer
      refine ⟨control, ?_⟩
      split
      · exact h
      · split <;> exact h

end Host

/-! ### Steps -/

namespace Simulation

variable {s s' : Simulation}

/-- What may become of a simulation by one operation. -/
inductive Step (s : Simulation) : Simulation → Prop where
  | defineSpecies (name : String) (charge mass : Real32) :
      Step s ((defineSpecies name charge mass).leaves s)
  | defineField (damping : Real32) : Step s ((defineField damping).leaves s)
  | define (F : Family) (name : String) (kind : F.Kind) (params : F.Params)
      (symbol : Option String) : Step s ((define F name kind params symbol).leaves s)
  | defineEmitter (name : String) (kind : EmitterKind) (params : EmitterParams)
      (symbol : Option String) (voxels : Option Nat) :
      Step s ((defineEmitter name kind params symbol voxels).leaves s)
  | recipe {F : Family} (r : Recipe F) (stock : r.Stock) : Step s (r.build.leaves s)
  | interact {s' : Simulation} (id : ComponentId) (hit : Hit) (d : Disposition)
      (result : s.interact id hit = .ok (d, s')) : Step s s'
  | advance : Step s s.advance
  | clearList (F : Family) : Step s (s.clearList F)
  | reset : Step s s.reset
  | checkpoint {σ : Type} (p : Host) (capacity : Option Nat) (pickle : ControlM σ Bytes)
      (layer : σ) : Step s (p.checkpoint s capacity pickle layer).simulation
  | checkpointToPath {σ : Type} (p : Host) (path : String) (pickle : ControlM σ Bytes)
      (layer : σ) : Step s (p.checkpointToPath s path pickle layer).simulation
  | updateSpecies (species : SpeciesList) : Step s { s with species }
  | updateParams (F : Family) (object : ObjectId) (f : F.Params → F.Params) :
      Step s (s.setList ((s.list F).updateParams object f))

theorem withControl_retuned (s : Simulation) (control : Bytes) : s.Retuned { s with control } :=
  ⟨rfl, rfl, rfl, fun F => by cases F <;> exact .refl _⟩

/-- **A step leaves a sound simulation sound**, unless the cursor wraps. -/
theorem Step.sound (h : s.Step s') (hs : s.Sound) (hw : s.registry.cursor ≤ s'.registry.cursor) :
    s'.Sound := by
  cases h with
  | defineSpecies name charge mass => exact (SimulationM.tame_defineSpecies ..).sound s hs hw
  | defineField damping => exact (SimulationM.tame_defineField ..).sound s hs hw
  | define F name kind params symbol => exact (SimulationM.tame_define ..).sound s hs hw
  | defineEmitter name kind params symbol voxels =>
      exact (SimulationM.tame_defineEmitter ..).sound s hs hw
  | recipe r stock => exact stock.tame.sound s hs hw
  | interact id hit d result => exact hs.retuned (interact_retuned result)
  | advance => exact hs.retuned (advance_retuned s)
  | clearList F => exact hs.clearList F
  | reset => exact hs.reset
  | checkpoint p capacity pickle layer =>
      obtain ⟨control, he⟩ := p.checkpoint_simulation s capacity pickle layer
      rw [he]
      exact hs.retuned (withControl_retuned s control)
  | checkpointToPath p path pickle layer =>
      obtain ⟨control, he⟩ := p.checkpointToPath_simulation s path pickle layer
      rw [he]
      exact hs.retuned (withControl_retuned s control)
  | updateSpecies species =>
      exact hs.retuned ⟨rfl, rfl, rfl, fun F => by cases F <;> exact .refl _⟩
  | updateParams F object f =>
      exact hs.retuned (setList_retuned (Roster.updateParams_retuned _ object f))

/-- A new simulation owns what it has registered. -/
theorem new_sound (behaviors : Behaviors) (supply : InstanceSupply) :
    (new behaviors supply).1.Sound where
  owns := List.Perm.swap ..
  below := by
    intro id hid
    have hid' : id ∈ ([⟨0⟩, ⟨1⟩, ⟨2⟩, ⟨3⟩, ⟨4⟩] : List ObjectId) := hid
    simp only [List.mem_cons, List.not_mem_nil, or_false] at hid'
    show id.val < 5
    rcases hid' with rfl | rfl | rfl | rfl | rfl <;> decide
  chained F := by cases F <;> exact Roster.chained_empty _ _

end Simulation

end ParticleSim
