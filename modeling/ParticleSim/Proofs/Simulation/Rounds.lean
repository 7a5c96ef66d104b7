import ParticleSim.Proofs.Restore.Formation
import ParticleSim.Proofs.Roster.Visits
import ParticleSim.Proofs.Simulation.Courses
import ParticleSim.Proofs.Simulation.Histories
import Mathlib.Logic.Function.Iterate

/-!
# Simulation — Rounds

A step in time runs the collision operators and then the emitters.  Seen from the links, it is a walk
along the collision operators and one along the emitters, and then one more step is complete
(`Simulation.Rounds`).

* `Simulation.Occurs.intact`: the lists of a simulation are intact, also when they are handled
  directly and however often the cursor has wrapped.
* `Simulation.Occurs.advance_rounds`: any number of steps is as many rounds.
-/

namespace ParticleSim

namespace Simulation

variable {s s' : Simulation}

/-! ### Simulations with intact lists -/

/-- The simulations that there can be, if a component is also offered to a list directly, if two
simulations exchange their lists, and whether or not the cursor has wrapped. -/
inductive Occurs : Simulation → Prop where
  | reached {s : Simulation} (h : s.Reached) : Occurs s
  | step {s s' : Simulation} (before : Occurs s) (step : s.Step s') : Occurs s'
  | offered {s : Simulation} (before : Occurs s) {F : Family} (c : Component F) :
      Occurs (s.setList ((s.list F).offer c))
  | exchanged {s s' : Simulation} (before : Occurs s) (other : Occurs s') (F : Family) :
      Occurs (s.setList (s'.list F))

/-- Exchanging one list for an intact one. -/
theorem intact_setList {F : Family} {l : Roster F} (hs : ∀ G, (s.list G).Intact) (hl : l.Intact)
    (G : Family) : ((s.setList l).list G).Intact := by
  by_cases hG : G = F
  · subst hG
    rw [list_setList]
    exact hl
  · rw [list_setList_of_ne _ _ hG]
    exact hs G

/-- **Every list of a simulation that there can be is intact.** -/
theorem Occurs.intact (h : s.Occurs) (F : Family) : (s.list F).Intact := by
  induction h generalizing F with
  | reached h => exact ⟨h.sound.chained F, h.sound.nodup_members F⟩
  | step _ step ih =>
      obtain ⟨t, ht⟩ := step.exists_course
      exact ht.intact ih F
  | offered _ c ih => exact intact_setList ih ((ih _).offer c) F
  | exchanged _ _ G ih ih' => exact intact_setList ih (ih' G) F

/-! ### Steps in time -/

/-- What `k` steps in time leave alone: everything but the species, the number of steps and the
parameters of collision operators and emitters; and emitters keep the size of their voxels. -/
structure Ran (k : Nat) (s s' : Simulation) : Prop where
  collisions : s.collisions.Retuned s'.collisions
  emitters : s.emitters.Retuned s'.emitters
  voxels : s'.emitters.members.map Component.voxelCount? =
    s.emitters.members.map Component.voxelCount?
  rest : s' = { s with
    collisions := s'.collisions
    emitters := s'.emitters
    species := s'.species
    step := s.step + .ofNat k }

theorem Ran.succ {k : Nat} (h : Ran k s s') : Ran (k + 1) s s'.advance where
  collisions := h.collisions.trans (Roster.collide_retuned _ _)
  emitters := h.emitters.trans (Roster.emit_retuned _ _)
  voxels := (Roster.emit_voxels _ _).trans h.voxels
  rest := by
    have hstep : s.step + .ofNat (k + 1) = s.step + .ofNat k + 1 := by
      rw [UInt64.ofNat_add, UInt64.add_assoc]
      rfl
    rw [hstep]
    exact congrArg advance h.rest

/-- Any number of steps in time leave alone what one of them does. -/
theorem ran_iterate (s : Simulation) (k : Nat) : Ran k s (advance^[k] s) := by
  induction k with
  | zero => exact ⟨.refl _, .refl _, rfl, by simp⟩
  | succ k ih =>
      rw [Function.iterate_succ_apply']
      exact ih.succ

/-! ### Rounds -/

/-- Rounds of a simulation, with the objects that they come past.  Each is a walk from the head of
the collision operators on, then one from the head of the emitters on, and then one more step is
complete. -/
inductive Rounds : Nat → Simulation → List ObjectId → Simulation → Prop where
  | none {s : Simulation} : Rounds 0 s [] s
  | more {s s' : Simulation} {k : Nat} {collisions : Roster .collision} {emitters : Roster .emitter}
      {species species' : SpeciesList} {passed passed' rest : List ObjectId}
      (collided : s.collisions.Walk s.collisions.nextLink s.species passed collisions species)
      (emitted : s.emitters.Walk s.emitters.nextLink species passed' emitters species')
      (further : Rounds k { s with collisions, emitters, species := species', step := s.step + 1 }
        rest s') : Rounds (k + 1) s (passed ++ passed' ++ rest) s'

/-- The objects that a round comes past. -/
def visited (s : Simulation) : List ObjectId :=
  s.collisions.native.map Component.object ++ s.emitters.native.map Component.object

theorem visited_advance (s : Simulation) : s.advance.visited = s.visited := by
  have hran := ran_iterate s 1
  have hc := hran.collisions.map_members (f := Component.object) fun _ _ => rfl
  have he := hran.emitters.map_members (f := Component.object) fun _ _ => rfl
  simp only [Function.iterate_one] at hc he
  simp only [visited, Roster.native, List.map_reverse, hc, he]

/-- A round is a step in time. -/
theorem rounds_succ_iff (hc : s.collisions.Intact) (he : s.emitters.Intact) {k : Nat}
    {passed : List ObjectId} :
    Rounds (k + 1) s passed s' ↔
      ∃ rest, passed = s.visited ++ rest ∧ Rounds k s.advance rest s' := by
  constructor
  · intro h
    cases h with
    | @more _ _ _ collisions emitters _ species' _ _ rest collided emitted further =>
        obtain ⟨rfl, hcollide⟩ := hc.collide_walk.mp collided
        obtain ⟨rfl, hemit⟩ := he.emit_walk.mp emitted
        have hadvance : s.advance =
            { s with collisions, emitters, species := species', step := s.step + 1 } := by
          simp only [advance, applyList, hcollide, hemit]
        exact ⟨rest, rfl, hadvance ▸ further⟩
  · rintro ⟨rest, rfl, further⟩
    exact .more (hc.collide_walk.mpr ⟨rfl, rfl⟩) (he.emit_walk.mpr ⟨rfl, rfl⟩) further

/-- Any number of rounds are as many steps in time. -/
theorem rounds_iff (hc : s.collisions.Intact) (he : s.emitters.Intact) {k : Nat}
    {passed : List ObjectId} :
    Rounds k s passed s' ↔ passed = (List.replicate k s.visited).flatten ∧ s' = advance^[k] s := by
  induction k generalizing s passed with
  | zero =>
      constructor
      · rintro ⟨⟩
        exact ⟨rfl, rfl⟩
      · rintro ⟨rfl, rfl⟩
        exact .none
  | succ k ih =>
      have hc' : s.advance.collisions.Intact := hc.retuned (s.advance_retuned.lists .collision)
      have he' : s.advance.emitters.Intact := he.retuned (s.advance_retuned.lists .emitter)
      rw [rounds_succ_iff hc he, List.replicate_succ, List.flatten_cons,
        Function.iterate_succ_apply]
      simp only [ih hc' he', visited_advance]
      constructor
      · rintro ⟨_, rfl, rfl, rfl⟩
        exact ⟨rfl, rfl⟩
      · rintro ⟨rfl, rfl⟩
        exact ⟨_, rfl, rfl, rfl⟩

/-- **Steps in time are rounds along the links**, in every simulation that there can be and whatever
its behaviors do.  Each round comes past every collision operator once, the last to join first, and
then past every emitter; each one it comes past runs on parameters of its own and on the species as
the one before has left them.  Nothing else is changed, and the number of steps counts the rounds. -/
theorem Occurs.advance_rounds (h : s.Occurs) (k : Nat) :
    (∀ passed s', Rounds k s passed s' ↔
      passed = (List.replicate k (s.collisions.native.map Component.object ++
        s.emitters.native.map Component.object)).flatten ∧ s' = advance^[k] s) ∧
    (s.collisions.native.map Component.object).Nodup ∧
    (s.emitters.native.map Component.object).Nodup ∧
    s.collisions.Retuned (advance^[k] s).collisions ∧
    s.emitters.Retuned (advance^[k] s).emitters ∧
    (advance^[k] s).emitters.members.map Component.voxelCount? =
      s.emitters.members.map Component.voxelCount? ∧
    advance^[k] s = { s with
      collisions := (advance^[k] s).collisions
      emitters := (advance^[k] s).emitters
      species := (advance^[k] s).species
      step := s.step + .ofNat k } := by
  have hc : s.collisions.Intact := h.intact .collision
  have he : s.emitters.Intact := h.intact .emitter
  have hran := ran_iterate s k
  refine ⟨fun _ _ => rounds_iff hc he, ?_, ?_, hran.collisions, hran.emitters, hran.voxels,
    hran.rest⟩
  · rw [Roster.native, List.map_reverse, List.nodup_reverse]
    exact hc.nodup
  · rw [Roster.native, List.map_reverse, List.nodup_reverse]
    exact he.nodup

/-- An operator that notes how many species there are, and adds one. -/
def noting : Family.Behavior .collision := fun params species =>
  (params ++ [.ofNat species.size], species.push ⟨"", ⟨0⟩, ⟨0⟩, 0⟩)

/-- A simulation with two such operators and an emitter. -/
def notingTwice : Simulation :=
  (define .emitter "source" EmitterKind.user (⟨[], none⟩ : EmitterParams) none).leaves
    ((define .collision "second" CollisionKind.user [] (some "noting")).leaves
      ((define .collision "first" CollisionKind.user [] (some "noting")).leaves
        (new (Behaviors.none.define .collision "noting" noting) ⟨0⟩).1))

/-- The second to join is the first to run, in each of two rounds. -/
theorem Occurs.advance_rounds_noting :
    Rounds 2 notingTwice [⟨6⟩, ⟨5⟩, ⟨7⟩, ⟨6⟩, ⟨5⟩, ⟨7⟩] (advance^[2] notingTwice) ∧
      (advance^[2] notingTwice).collisions.members.map Component.params = [[1, 3], [0, 2]] := by
  have occurs : notingTwice.Occurs :=
    .step (.step (.step (.reached (.new _ _)) (.define ..)) (.define ..)) (.define ..)
  exact ⟨((occurs.advance_rounds 2).1 _ _).mpr ⟨by decide, rfl⟩, by decide⟩

end Simulation

end ParticleSim
