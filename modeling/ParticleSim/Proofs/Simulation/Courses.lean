import ParticleSim.Proofs.Roster.Growth
import ParticleSim.Proofs.Simulation.Steps
import Mathlib.Logic.Relation

/-!
# Simulation — What a step does to the lists

A definition and a stock recipe have one component join one list when they succeed, and change no
list when they fail (`SimulationM.Builds`).  So whatever step a simulation takes, its lists only see
that parameters change, that components join and that all members go, in some order
(`Simulation.Step.exists_course`); and each list becomes what the events at its place make of it
(`Simulation.Course.became`).

Nothing is assumed of the simulation but that its lists are at different places.
-/

namespace ParticleSim

/-! ### Operations that keep the lists -/

/-- An operation that leaves every list as it is, whether it succeeds or not. -/
def SimulationM.Keeps {α : Type} (m : SimulationM α) : Prop := ∀ s F, (m.leaves s).list F = s.list F

/-- An operation that has one component join a list and returns its identity; or fails, and leaves
every list as it is. -/
structure SimulationM.Builds (F : Family) (m : SimulationM ObjectId) : Prop where
  joins : ∀ {s object s'}, m s = .ok object s' → ∃ c : Component F, c.object = object ∧
    (s.list F).append c = .ok (s'.list F) ∧ ∀ G, G ≠ F → s'.list G = s.list G
  keeps : ∀ {s e s'}, m s = .error e s' → ∀ G, s'.list G = s.list G

namespace SimulationM

variable {α : Type} {F : Family}

theorem keeps_get : Keeps (MonadState.get : SimulationM Simulation) := fun _ _ => rfl

/-- A check leaves the whole simulation as it is. -/
theorem keeps_require (check : Simulation → Except ComponentError α) :
    Keeps (Recipe.require check) := by
  intro s F
  rw [leaves]
  cases h : check s with
  | ok a => rw [Recipe.require_of_ok h]
  | error e => rw [Recipe.require_of_error h]

theorem keeps_create (F : Family) (name : String) (kind : F.Kind) (params : F.Params)
    (symbol : Option String) : Keeps (Simulation.create F name kind params symbol) := by
  intro s G
  rw [leaves, Simulation.create_eq]
  cases s.behaviors.bind F symbol with
  | error symbol => rfl
  | ok behavior => exact Simulation.list_withRegistry s _ G

theorem keeps_defineSpecies (name : String) (charge mass : Real32) :
    Keeps (Simulation.defineSpecies name charge mass) := by
  intro s F
  rw [leaves]
  rcases s.defineSpecies_cases name charge mass with ⟨e, -, h⟩ | ⟨species, h⟩
  · rw [h]
  · rw [h]
    cases F <;> rfl

theorem keeps_defineField (damping : Real32) : Keeps (Simulation.defineField damping) := by
  intro s F
  rw [leaves]
  rcases s.defineField_cases damping with h | h
  · rw [h]
  · rw [h]
    cases F <;> rfl

/-! ### Operations that build -/

theorem builds_adopt (c : Component F) : Builds F (Simulation.adopt c) := by
  constructor
  · intro s object s' h
    cases ha : (s.list F).append c with
    | ok l =>
        rw [Simulation.adopt_of_ok ha] at h
        cases h
        exact ⟨c, rfl, by rw [Simulation.list_setList, ha], fun G hG =>
          Simulation.list_setList_of_ne s l hG⟩
    | error e =>
        rw [Simulation.adopt_of_error ha] at h
        cases h
  · intro s e s' h G
    cases ha : (s.list F).append c with
    | ok l =>
        rw [Simulation.adopt_of_ok ha] at h
        cases h
    | error e =>
        rw [Simulation.adopt_of_error ha] at h
        cases h
        exact Simulation.list_withRegistry s _ G

/-- Something that keeps the lists may come first. -/
theorem Builds.bind {m : SimulationM α} {next : α → SimulationM ObjectId} (hm : Keeps m)
    (hn : ∀ a, Builds F (next a)) : Builds F (m >>= next) := by
  constructor
  · intro s object s' h
    obtain ⟨a, s₁, ha, h₁⟩ := bind_eq_ok.mp h
    have hkeep : ∀ G, s₁.list G = s.list G := fun G => by
      have hs := hm s G
      rwa [leaves, ha] at hs
    obtain ⟨c, hobject, happend, hothers⟩ := (hn a).joins h₁
    exact ⟨c, hobject, hkeep F ▸ happend, fun G hG => (hothers G hG).trans (hkeep G)⟩
  · intro s e s' h G
    have hs := hm s G
    rw [leaves] at hs
    cases ha : m s with
    | error e' s₁ =>
        rw [bind_of_error ha] at h
        cases h
        rwa [ha] at hs
    | ok a s₁ =>
        rw [bind_of_ok ha] at h
        rw [ha] at hs
        exact ((hn a).keeps h G).trans hs

theorem builds_define (F : Family) (name : String) (kind : F.Kind) (params : F.Params)
    (symbol : Option String) : Builds F (Simulation.define F name kind params symbol) :=
  .bind (keeps_create F name kind params symbol) builds_adopt

theorem builds_defineEmitter (name : String) (kind : EmitterKind) (params : EmitterParams)
    (symbol : Option String) (voxels : Option Nat) :
    Builds .emitter (Simulation.defineEmitter name kind params symbol voxels) := by
  refine .bind (keeps_create .emitter name kind params symbol) fun c => ?_
  cases voxels with
  | none => exact builds_adopt c
  | some n =>
      dsimp only
      cases c.size n with
      | ok c => exact builds_adopt c
      | error e =>
          -- the component is forgotten and nothing has joined
          constructor
          · intro s object s' h
            cases h
          · intro s e' s' h G
            cases h
            exact Simulation.list_withRegistry s _ G

end SimulationM

/-- **A stock recipe builds one member or changes no list.** -/
theorem Recipe.Stock.builds {F : Family} {r : Recipe F} (h : r.Stock) :
    SimulationM.Builds F r.build := by
  have check {α : Type} {F : Family} (check : Simulation → Except ComponentError α)
      {next : α → SimulationM ObjectId} (hn : ∀ a, SimulationM.Builds F (next a)) :
      SimulationM.Builds F (Recipe.require check >>= next) :=
    .bind (SimulationM.keeps_require check) hn
  cases h with
  | reflecting name => exact check _ fun _ => SimulationM.builds_define ..
  | absorbing name => exact check _ fun _ => SimulationM.builds_define ..
  | refluxing name parallel perpendicular =>
      exact check _ fun _ => check _ fun _ => check _ fun _ => check _ fun _ =>
        SimulationM.builds_define ..
  | tallying name =>
      exact check _ fun _ => check _ fun _ => .bind SimulationM.keeps_get fun _ =>
        SimulationM.builds_define ..
  | colliding name kind symbol params => exact check _ fun _ => SimulationM.builds_define ..
  | emitting name kind symbol state voxels =>
      exact check _ fun _ => SimulationM.builds_defineEmitter ..

/-- A recipe of whatever origin that changes the simulation step by step. -/
def Recipe.Lawful {F : Family} (r : Recipe F) : Prop :=
  ∀ s, Relation.ReflTransGen Simulation.Step s (r.build.leaves s)

theorem Recipe.Stock.lawful {F : Family} {r : Recipe F} (h : r.Stock) : r.Lawful :=
  fun _ => .single (.recipe r h)

namespace Simulation

variable {s s' s'' : Simulation} {t t' : History}

/-! ### Events -/

/-- What the lists of a simulation see: parameters change, a component joins a list, all members of
a list go, or one after the other. -/
inductive Course : Simulation → History → Simulation → Prop where
  | retuned {s s' : Simulation} (lists : ∀ F, (s.list F).Retuned (s'.list F)) : Course s [] s'
  | joined {s s' : Simulation} {F : Family} {c : Component F}
      (joined : (s.list F).append c = .ok (s'.list F))
      (others : ∀ G, G ≠ F → s'.list G = s.list G) : Course s [.joined (s.list F).place] s'
  | cleared {s s' : Simulation} {F : Family} (cleared : s'.list F = (s.list F).clear)
      (others : ∀ G, G ≠ F → s'.list G = s.list G) : Course s [.cleared (s.list F).place] s'
  | trans {s s' s'' : Simulation} {t t' : History} (first : Course s t s')
      (second : Course s' t' s'') : Course s (t' ++ t) s''

namespace Course

theorem of_lists (h : ∀ F, s'.list F = s.list F) : s.Course [] s' :=
  .retuned fun F => by rw [h F]; exact .refl _

theorem of_keeps {α : Type} {m : SimulationM α} (h : SimulationM.Keeps m) (s : Simulation) :
    s.Course [] (m.leaves s) :=
  of_lists (h s)

theorem of_clearList (s : Simulation) (F : Family) :
    s.Course [.cleared (s.list F).place] (s.clearList F) := by
  refine .cleared ?_ fun G hG => ?_
  · rw [clearList, list_withRegistry, list_setList]
  · rw [clearList, list_withRegistry, list_setList_of_ne s _ hG]

/-- What lists see keeps them intact. -/
theorem intact {t : History} (h : s.Course t s') (hs : ∀ F, (s.list F).Intact) :
    ∀ F, (s'.list F).Intact := by
  induction h with
  | retuned lists => exact fun F => (hs F).retuned (lists F)
  | @joined s s' F c joined others =>
      intro G
      by_cases hG : G = F
      · subst hG
        exact (hs G).append joined
      · exact others G hG ▸ hs G
  | @cleared s s' F cleared others =>
      intro G
      by_cases hG : G = F
      · subst hG
        exact cleared ▸ Roster.intact_clear _
      · exact others G hG ▸ hs G
  | trans _ _ ih ih' => exact ih' (ih hs)

end Course

/-- What an operation that builds does to the lists. -/
theorem exists_course_of_builds {F : Family} {m : SimulationM ObjectId}
    (h : SimulationM.Builds F m) (s : Simulation) : ∃ t, s.Course t (m.leaves s) := by
  rw [SimulationM.leaves]
  cases hm : m s with
  | ok object s' =>
      obtain ⟨c, -, happend, hothers⟩ := h.joins hm
      exact ⟨_, .joined happend hothers⟩
  | error e s' => exact ⟨_, .of_lists (h.keeps hm)⟩

/-- **Whatever step a simulation takes**, its lists see events of the three kinds. -/
theorem Step.exists_course (h : s.Step s') : ∃ t, s.Course t s' := by
  cases h with
  | defineSpecies name charge mass => exact ⟨_, .of_keeps (SimulationM.keeps_defineSpecies _ _ _) s⟩
  | defineField damping => exact ⟨_, .of_keeps (SimulationM.keeps_defineField _) s⟩
  | define F name kind params symbol =>
      exact exists_course_of_builds (SimulationM.builds_define ..) s
  | defineEmitter name kind params symbol voxels =>
      exact exists_course_of_builds (SimulationM.builds_defineEmitter ..) s
  | recipe r stock => exact exists_course_of_builds stock.builds s
  | interact id hit d result => exact ⟨_, .retuned (interact_retuned result).lists⟩
  | advance => exact ⟨_, .retuned (advance_retuned s).lists⟩
  | clearList F => exact ⟨_, .of_clearList s F⟩
  | reset =>
      exact ⟨_, ((Course.of_clearList s _).trans (.of_clearList _ _)).trans (.of_clearList _ _)⟩
  | checkpoint p capacity pickle layer =>
      obtain ⟨control, he⟩ := p.checkpoint_simulation s capacity pickle layer
      exact ⟨_, .retuned (he ▸ withControl_retuned s control).lists⟩
  | checkpointToPath p path pickle layer =>
      obtain ⟨control, he⟩ := p.checkpointToPath_simulation s path pickle layer
      exact ⟨_, .retuned (he ▸ withControl_retuned s control).lists⟩
  | updateSpecies species => exact ⟨_, .of_lists fun F => by cases F <;> rfl⟩
  | updateParams F object f =>
      exact ⟨_, .retuned (setList_retuned (Roster.updateParams_retuned _ object f)).lists⟩

theorem exists_course_of_steps (h : Relation.ReflTransGen Step s s') : ∃ t, s.Course t s' := by
  induction h with
  | refl => exact ⟨_, .of_lists fun _ => rfl⟩
  | tail _ step ih =>
      obtain ⟨t, ht⟩ := ih
      obtain ⟨t', ht'⟩ := step.exists_course
      exact ⟨_, ht.trans ht'⟩

/-! ### What the lists become -/

/-- The places of the lists. -/
def places (s : Simulation) : List ListInstance := Family.all.map fun F => (s.list F).place

theorem place_mem_places (s : Simulation) (F : Family) : (s.list F).place ∈ s.places :=
  List.mem_map.mpr ⟨F, by cases F <;> decide, rfl⟩

theorem place_ne (hn : s.places.Nodup) {F G : Family} (h : G ≠ F) :
    (s.list G).place ≠ (s.list F).place := fun e =>
  h (List.inj_on_of_nodup_map hn (by cases G <;> decide) (by cases F <;> decide) e)

/-- Each list is what the events have made of it, and no event was elsewhere. -/
structure Became (s : Simulation) (t : History) (s' : Simulation) : Prop where
  lists : ∀ F, (s.list F).Became t (s'.list F)
  elsewhere : ∀ place, place ∉ s.places → t.Quiet place

theorem Became.places_eq (h : s.Became t s') : s'.places = s.places :=
  List.map_congr_left fun F _ => (h.lists F).place

theorem Became.trans (h : s.Became t s') (h' : s'.Became t' s'') : s.Became (t' ++ t) s'' := by
  refine ⟨fun F => (h.lists F).trans (h'.lists F), fun place hp => ?_⟩
  obtain ⟨hj, hc⟩ := h.elsewhere place hp
  obtain ⟨hj', hc'⟩ := h'.elsewhere place (by rwa [h.places_eq])
  simp only [History.Quiet, List.mem_append, not_or]
  exact ⟨⟨hj', hj⟩, hc', hc⟩

/-- One list has changed, and the event was at its place. -/
theorem Became.of_one (hn : s.places.Nodup) {F : Family} (hl : (s.list F).Became t (s'.list F))
    (others : ∀ G, G ≠ F → s'.list G = s.list G)
    (hq : ∀ place, place ≠ (s.list F).place → t.Quiet place) : s.Became t s' := by
  refine ⟨fun G => ?_, fun place hp => hq place fun e => hp (e ▸ s.place_mem_places F)⟩
  by_cases hG : G = F
  · subst hG
    exact hl
  · rw [others G hG]
    exact .of_quiet (hq _ (place_ne hn hG))

/-- **The lists become what the events make of them.** -/
theorem Course.became (h : s.Course t s') (hn : s.places.Nodup) : s.Became t s' := by
  induction h with
  | retuned lists =>
      exact ⟨fun F => .of_retuned (lists F) (by simp [History.Quiet]), fun _ _ => by
        simp [History.Quiet]⟩
  | joined joined others =>
      refine .of_one hn (.of_append joined) others fun place hp => ?_
      simpa [History.Quiet] using hp
  | @cleared s s' F cleared others =>
      refine .of_one hn (cleared ▸ .of_clear _) others fun place hp => ?_
      simpa [History.Quiet] using hp
  | trans _ _ ih ih' =>
      have h := ih hn
      exact h.trans (ih' (h.places_eq ▸ hn))

end Simulation

end ParticleSim
