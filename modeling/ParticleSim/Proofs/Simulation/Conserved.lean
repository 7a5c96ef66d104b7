import ParticleSim.Proofs.Simulation.Courses
import ParticleSim.Proofs.Simulation.Histories

/-!
# Simulation — What its own operations leave alone

What a simulation does of itself (`Simulation.Operation`) never touches its tables of behaviors nor
its control state, and gives no member a behavior that is not in the tables
(`Simulation.Conserved`).  Checkpoints are the only other steps, and they change the control state
at most (`Simulation.Step.operation_or_control`).

* `Simulation.Operation.conserved`: every operation conserves these, whether it succeeds or not.
* `Simulation.Reached.furnished`: in every simulation that there can be, the behavior of a member is
  the one that its symbol has in the tables.
-/

namespace ParticleSim

namespace Simulation

variable {s s' s'' : Simulation}

/-- Every member has the behavior that its symbol has in the tables. -/
def Furnished (s : Simulation) : Prop := ∀ F, ∀ c ∈ (s.list F).members, c.Bound s.behaviors

/-- The tables and the control state are the same, and the tables still account for the members. -/
structure Conserved (s s' : Simulation) : Prop where
  tables : s'.behaviors = s.behaviors
  control : s'.control = s.control
  furnished : s.Furnished → s'.Furnished

namespace Conserved

theorem refl (s : Simulation) : s.Conserved s := ⟨rfl, rfl, id⟩

theorem trans (h : s.Conserved s') (h' : s'.Conserved s'') : s.Conserved s'' :=
  ⟨h'.tables.trans h.tables, h'.control.trans h.control, fun hs => h'.furnished (h.furnished hs)⟩

/-- Where the lists are the same, so are the members. -/
theorem of_lists (tables : s'.behaviors = s.behaviors) (control : s'.control = s.control)
    (lists : ∀ F, s'.list F = s.list F) : s.Conserved s' :=
  ⟨tables, control, fun hs F c hc => tables ▸ hs F c (lists F ▸ hc)⟩

theorem withRegistry (s : Simulation) (registry : Registry) : s.Conserved { s with registry } :=
  of_lists rfl rfl (s.list_withRegistry registry)

/-- Parameters are none of the tables' business. -/
theorem of_retuned (tables : s'.behaviors = s.behaviors) (control : s'.control = s.control)
    (h : s.Retuned s') : s.Conserved s' := by
  refine ⟨tables, control, fun hs F c' hc' => ?_⟩
  obtain ⟨c, hc, params, rfl⟩ := exists_of_forall₂ (h.lists F).members hc'
  exact tables ▸ hs F c hc

/-- One list has exchanged its members for others that the tables account for. -/
theorem setList {F : Family} {l : Roster F}
    (h : ∀ c ∈ l.members, c ∈ (s.list F).members ∨ c.Bound s.behaviors) :
    s.Conserved (s.setList l) := by
  have htables : (s.setList l).behaviors = s.behaviors := by cases F <;> rfl
  refine ⟨htables, by cases F <;> rfl, fun hs G c hc => ?_⟩
  rw [htables]
  by_cases hG : G = F
  · subst hG
    rw [list_setList] at hc
    exact (h c hc).elim (hs G c) id
  · rw [list_setList_of_ne _ _ hG] at hc
    exact hs G c hc

theorem clearList (s : Simulation) (F : Family) : s.Conserved (s.clearList F) :=
  (setList (F := F) (l := (s.list F).clear) fun _ hc => absurd hc List.not_mem_nil).trans
    (withRegistry _ _)

end Conserved

end Simulation

/-! ### Operations that may fail -/

/-- An operation that conserves what it finds, whether it succeeds or not. -/
def SimulationM.Conserves {α : Type} (m : SimulationM α) : Prop :=
  ∀ s : Simulation, s.Conserved (m.leaves s)

namespace SimulationM

variable {α β : Type}

theorem Conserves.bind {m : SimulationM α} {next : α → SimulationM β} (hm : Conserves m)
    (hn : ∀ a, Conserves (next a)) : Conserves (m >>= next) := by
  intro s
  have hs := hm s
  rw [leaves] at hs ⊢
  cases h : m s with
  | error e s' => rw [bind_of_error h]; rwa [h] at hs
  | ok a s' =>
      rw [bind_of_ok h]
      rw [h] at hs
      exact hs.trans (hn a s')

theorem conserves_get : Conserves (MonadState.get : SimulationM Simulation) :=
  fun s => .refl s

theorem conserves_require (check : Simulation → Except ComponentError α) :
    Conserves (Recipe.require check) := by
  intro s
  rw [leaves]
  cases h : check s with
  | ok a => rw [Recipe.require_of_ok h]; exact .refl s
  | error e => rw [Recipe.require_of_error h]; exact .refl s

theorem conserves_defineSpecies (name : String) (charge mass : Real32) :
    Conserves (Simulation.defineSpecies name charge mass) := by
  intro s
  rw [leaves]
  rcases s.defineSpecies_cases name charge mass with ⟨e, -, h⟩ | ⟨species, h⟩
  · rw [h]; exact .refl s
  · rw [h]; exact .of_lists rfl rfl fun F => by cases F <;> rfl

theorem conserves_defineField (damping : Real32) : Conserves (Simulation.defineField damping) := by
  intro s
  rw [leaves]
  rcases s.defineField_cases damping with h | h
  · rw [h]; exact .refl s
  · rw [h]; exact .of_lists rfl rfl fun F => by cases F <;> rfl

/-- A component that the tables account for may join its list. -/
theorem conserved_adopt {F : Family} {c : Component F} {s : Simulation} (hc : c.Bound s.behaviors) :
    s.Conserved ((Simulation.adopt c).leaves s) := by
  rw [leaves]
  cases ha : (s.list F).append c with
  | error e => rw [Simulation.adopt_of_error ha]; exact .withRegistry s _
  | ok l =>
      rw [Simulation.adopt_of_ok ha]
      obtain ⟨-, -, rfl⟩ := Roster.append_eq_ok.mp ha
      refine .setList fun c' hc' => ?_
      rcases List.mem_append.mp hc' with hc' | hc'
      · exact .inl hc'
      · rw [List.mem_singleton.mp hc']
        exact .inr hc

/-- A component is created with a behavior of the tables; what is done with it next may rely on
that. -/
theorem conserves_create_bind {F : Family} {name : String} {kind : F.Kind} {params : F.Params}
    {symbol : Option String} {next : Component F → SimulationM β}
    (hn : ∀ (c : Component F) (s : Simulation),
      c.Bound s.behaviors → s.Conserved ((next c).leaves s)) :
    Conserves (Simulation.create F name kind params symbol >>= next) := by
  intro s
  have hcreate := s.create_eq F name kind params symbol
  rw [leaves]
  cases hb : s.behaviors.bind F symbol with
  | error symbol =>
      rw [hb] at hcreate
      rw [bind_of_error hcreate]
      exact .refl s
  | ok behavior =>
      rw [hb] at hcreate
      rw [bind_of_ok hcreate]
      refine (Simulation.Conserved.withRegistry s _).trans (hn _ _ ?_)
      show s.behaviors.bind F (behavior.map (·.symbol)) = .ok behavior
      rw [Behaviors.symbol_of_bind hb, hb]

theorem conserves_define (F : Family) (name : String) (kind : F.Kind) (params : F.Params)
    (symbol : Option String) : Conserves (Simulation.define F name kind params symbol) :=
  conserves_create_bind fun _ _ => conserved_adopt

theorem conserves_defineEmitter (name : String) (kind : EmitterKind) (params : EmitterParams)
    (symbol : Option String) (voxels : Option Nat) :
    Conserves (Simulation.defineEmitter name kind params symbol voxels) := by
  refine conserves_create_bind fun c s hc => ?_
  cases voxels with
  | none => exact conserved_adopt hc
  | some n =>
      dsimp only
      rw [Component.size]
      split
      · next h =>
        split at h <;> cases h
        exact conserved_adopt hc
      · exact .withRegistry s _

end SimulationM

theorem Recipe.Stock.conserves {F : Family} {r : Recipe F} (h : r.Stock) :
    SimulationM.Conserves r.build := by
  have check {α : Type} (check : Simulation → Except ComponentError α)
      {next : α → SimulationM ObjectId} (hn : ∀ a, SimulationM.Conserves (next a)) :
      SimulationM.Conserves (Recipe.require check >>= next) :=
    (SimulationM.conserves_require check).bind hn
  cases h with
  | reflecting name => exact check _ fun _ => SimulationM.conserves_define _ _ _ _ _
  | absorbing name => exact check _ fun _ => SimulationM.conserves_define _ _ _ _ _
  | refluxing name parallel perpendicular =>
      exact check _ fun _ => check _ fun _ => check _ fun _ => check _ fun _ =>
        SimulationM.conserves_define _ _ _ _ _
  | tallying name =>
      exact check _ fun _ => check _ fun _ => SimulationM.conserves_get.bind fun _ =>
        SimulationM.conserves_define _ _ _ _ _
  | colliding name kind symbol params =>
      exact check _ fun _ => SimulationM.conserves_define _ _ _ _ _
  | emitting name kind symbol state voxels =>
      exact check _ fun _ => SimulationM.conserves_defineEmitter _ _ _ _ _

/-! ### Operations -/

namespace Simulation

variable {s s' : Simulation}

/-- What may become of a simulation by one operation of its own. -/
inductive Operation (s : Simulation) : Simulation → Prop where
  | defineSpecies (name : String) (charge mass : Real32) :
      Operation s ((defineSpecies name charge mass).leaves s)
  | defineField (damping : Real32) : Operation s ((defineField damping).leaves s)
  | define (F : Family) (name : String) (kind : F.Kind) (params : F.Params)
      (symbol : Option String) : Operation s ((define F name kind params symbol).leaves s)
  | defineEmitter (name : String) (kind : EmitterKind) (params : EmitterParams)
      (symbol : Option String) (voxels : Option Nat) :
      Operation s ((defineEmitter name kind params symbol voxels).leaves s)
  | recipe {F : Family} (r : Recipe F) (stock : r.Stock) : Operation s (r.build.leaves s)
  | interact {s' : Simulation} (id : ComponentId) (hit : Hit) (d : Disposition)
      (result : s.interact id hit = .ok (d, s')) : Operation s s'
  | advance : Operation s s.advance
  | clearList (F : Family) : Operation s (s.clearList F)
  | reset : Operation s s.reset
  | updateSpecies (species : SpeciesList) : Operation s { s with species }
  | updateParams (F : Family) (object : ObjectId) (f : F.Params → F.Params) :
      Operation s (s.setList ((s.list F).updateParams object f))

/-- **Tables and control state are conserved by every operation.** -/
theorem Operation.conserved (h : s.Operation s') : s.Conserved s' := by
  cases h with
  | defineSpecies name charge mass => exact SimulationM.conserves_defineSpecies _ _ _ s
  | defineField damping => exact SimulationM.conserves_defineField _ s
  | define F name kind params symbol => exact SimulationM.conserves_define _ _ _ _ _ s
  | defineEmitter name kind params symbol voxels =>
      exact SimulationM.conserves_defineEmitter _ _ _ _ _ s
  | recipe r stock => exact stock.conserves s
  | interact id hit d result =>
      have hr := interact_retuned result
      rw [Simulation.interact] at result
      split at result
      · cases result
      · cases result
        exact .of_retuned rfl rfl hr
  | advance => exact .of_retuned rfl rfl (advance_retuned s)
  | clearList F => exact .clearList s F
  | reset => exact ((Conserved.clearList s _).trans (.clearList _ _)).trans (.clearList _ _)
  | updateSpecies species => exact .of_lists rfl rfl fun F => by cases F <;> rfl
  | updateParams F object f =>
      refine .of_retuned ?_ ?_ (setList_retuned (Roster.updateParams_retuned _ object f)) <;>
        cases F <;> rfl

/-- A step is an operation or changes the control state only. -/
theorem Step.operation_or_control (h : s.Step s') :
    s.Operation s' ∨ ∃ control, s' = { s with control } := by
  cases h with
  | defineSpecies name charge mass => exact .inl (.defineSpecies name charge mass)
  | defineField damping => exact .inl (.defineField damping)
  | define F name kind params symbol => exact .inl (.define F name kind params symbol)
  | defineEmitter name kind params symbol voxels =>
      exact .inl (.defineEmitter name kind params symbol voxels)
  | recipe r stock => exact .inl (.recipe r stock)
  | interact id hit d result => exact .inl (.interact id hit d result)
  | advance => exact .inl .advance
  | clearList F => exact .inl (.clearList F)
  | reset => exact .inl .reset
  | checkpoint p capacity pickle layer =>
      exact .inr (p.checkpoint_simulation s capacity pickle layer)
  | checkpointToPath p path pickle layer =>
      exact .inr (p.checkpointToPath_simulation s path pickle layer)
  | updateSpecies species => exact .inl (.updateSpecies species)
  | updateParams F object f => exact .inl (.updateParams F object f)

/-- A step leaves the tables of behaviors as they are. -/
theorem Step.tables (h : s.Step s') : s'.behaviors = s.behaviors := by
  rcases h.operation_or_control with hop | ⟨control, rfl⟩
  · exact hop.conserved.tables
  · rfl

theorem Furnished.withControl (h : s.Furnished) (control : Bytes) :
    ({ s with control } : Simulation).Furnished :=
  fun F c hc => h F c (by cases F <;> exact hc)

/-- **The tables account for the members** of every simulation that there can be. -/
theorem Reached.furnished (h : s.Reached) : s.Furnished := by
  induction h with
  | new behaviors supply =>
      intro F c hc
      cases F <;> exact absurd hc List.not_mem_nil
  | restored p input behaviors unpickle layer a result =>
      obtain ⟨_, _, _, _, -, -, hd, hholds, -, hb⟩ := Host.of_restore result
      exact fun F c hc => hb ▸
        hd.bound _ _ (hholds.parts _ (mem_parts.mpr (.inr (.inr (.inr ⟨F, c, hc, rfl⟩)))))
  | step before step cursor ih =>
      rcases step.operation_or_control with hop | ⟨control, rfl⟩
      · exact hop.conserved.furnished ih
      · exact ih.withControl control

end Simulation

end ParticleSim
