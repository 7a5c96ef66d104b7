import ParticleSim.Proofs.Roster.Numbering

/-!
# Rosters — Walks that run behaviors

The behaviors of a list are run from the end of its members to the front (`Component.runEach`).  A
walk knows nothing of that: it starts at the head, looks up whom its link leads to, runs the behavior
of that member on the list and the species as they are by then, and goes on along the member's own
link until that ends (`Roster.Walk`).

* `Roster.Intact.collide_walk`, `Roster.Intact.emit_walk`: in an intact list there is one such walk;
  it visits every member once, the last to join first, and its effect is that of the list as a whole.
-/

namespace ParticleSim

/-! ### One visit -/

/-- What a visit makes of a component and the species.  A component without a behavior stays as it
is; the behavior of another runs once, on parameters of its own.  An emitter that is not sized has
no voxels to run on and stays that way. -/
inductive Component.Visit :
    {F : Family} → Component F → SpeciesList → Component F → SpeciesList → Prop where
  | idle {F : Family} {c : Component F} {species : SpeciesList} (unbound : c.behavior = none) :
      Visit c species c species
  | collides {c : Component .collision} {behavior : BoundBehavior .collision} {params : Bytes}
      {species species' : SpeciesList} (bound : c.behavior = some behavior)
      (ran : behavior.run c.params species = (params, species')) :
      Visit c species { c with params } species'
  | emits {c : Component .emitter} {behavior : BoundBehavior .emitter} {state state' : Bytes}
      {n : Nat} {voxels voxels' : Vector Int32 n} {species species' : SpeciesList}
      (bound : c.behavior = some behavior)
      (sized : c.params = (⟨state, some voxels.toArray⟩ : EmitterParams))
      (ran : behavior.run state n voxels species = (state', voxels', species')) :
      Visit c species { c with params := (⟨state', some voxels'.toArray⟩ : EmitterParams) } species'
  | emitsUnsized {c : Component .emitter} {behavior : BoundBehavior .emitter}
      {state state' : Bytes} {voxels' : Vector Int32 0} {species species' : SpeciesList}
      (bound : c.behavior = some behavior)
      (unsized : c.params = (⟨state, none⟩ : EmitterParams))
      (ran : behavior.run state 0 #v[] species = (state', voxels', species')) :
      Visit c species { c with params := (⟨state', none⟩ : EmitterParams) } species'

namespace Component

variable {species species' : SpeciesList}

/-- A visit changes parameters only. -/
theorem Visit.retuned {F : Family} {c c' : Component F} (h : c.Visit species c' species') :
    c.Retuned c' := by
  cases h with
  | idle _ => exact .refl c
  | collides _ _ | emits _ _ _ | emitsUnsized _ _ _ => exact ⟨_, rfl⟩

/-- A visit to a collision operator runs it. -/
theorem visit_iff_collide {c c' : Component .collision} :
    c.Visit species c' species' ↔ c.collide species = (c', species') := by
  constructor
  · intro h
    cases h with
    | idle unbound => rw [collide, unbound]
    | collides bound ran => simp only [collide, bound, ran]
  · intro h
    rw [collide] at h
    split at h
    · next unbound =>
      cases h
      exact .idle unbound
    · next behavior bound =>
      cases h
      exact .collides bound rfl

/-- A visit to an emitter runs it. -/
theorem visit_iff_emit {c c' : Component .emitter} :
    c.Visit species c' species' ↔ c.emit species = (c', species') := by
  constructor
  · intro h
    cases h with
    | idle unbound => simp only [emit, unbound]
    | @emits _ _ _ _ n voxels _ _ _ bound sized ran =>
        obtain ⟨voxels, rfl⟩ := voxels
        rw [← Array.toVector] at ran
        simp only [emit, bound, sized, ran]
    | emitsUnsized bound unsized ran => simp only [emit, bound, unsized, ran]
  · intro h
    have hparams (voxels : Option (Array Int32)) :
        (c.params : EmitterParams).voxels = voxels →
          c.params = (⟨(c.params : EmitterParams).state, voxels⟩ : EmitterParams) := by
      rintro rfl
      rfl
    simp only [emit] at h
    split at h
    · next unbound =>
      cases h
      exact .idle unbound
    · next behavior voxels bound sized =>
      cases h
      have hsized : c.params = (⟨_, some voxels.toVector.toArray⟩ : EmitterParams) :=
        hparams _ sized
      exact .emits bound hsized rfl
    · next behavior bound unsized =>
      cases h
      exact .emitsUnsized bound (hparams _ unsized) rfl

variable {F : Family} {run : Component F → SpeciesList → Component F × SpeciesList}

/-- The component at the end is run before all others. -/
theorem runEach_concat (cs : List (Component F)) (c : Component F) (species : SpeciesList) :
    runEach run (cs ++ [c]) species =
      ((runEach run cs (run c species).2).1 ++ [(run c species).1],
        (runEach run cs (run c species).2).2) := by
  induction cs with
  | nil => rfl
  | cons c' cs ih => simp only [List.cons_append, runEach, ih]

end Component

namespace Roster

/-! ### Walks -/

/-- A walk from a link on that visits every member it comes to, past the given objects: what it makes
of the list and the species. -/
inductive Walk {F : Family} :
    Roster F → Link → SpeciesList → List ObjectId → Roster F → SpeciesList → Prop where
  | last {l : Roster F} {species : SpeciesList} : Walk l .last species [] l species
  | next {l l' : Roster F} {object : ObjectId} {c c' : Component F} {link : Link}
      {species species₁ species' : SpeciesList} {passed : List ObjectId}
      (found : l.get? object = some c) (linked : c.link = some link)
      (visit : c.Visit species c' species₁)
      (rest : Walk (l.updateParams object fun _ => c'.params) link species₁ passed l' species') :
      Walk l (.next object) species (object :: passed) l' species'

/-- A member that has been visited is still in its place, and the list is still intact. -/
theorem Intact.set_visited {F : Family} {l : Roster F} (h : l.Intact) {i : Nat}
    {c c' : Component F} (hc : l.members[i]? = some c) {species species' : SpeciesList}
    (hv : c.Visit species c' species') :
    (l.updateParams c.object fun _ => c'.params) = { l with members := l.members.set i c' } ∧
      ({ l with members := l.members.set i c' } : Roster F).Intact := by
  have hset : (l.updateParams c.object fun _ => c'.params) =
      { l with members := l.members.set i c' } := by
    obtain ⟨params, rfl⟩ := hv.retuned
    exact h.updateParams_eq hc _
  exact ⟨hset, hset ▸ h.retuned (updateParams_retuned l c.object _)⟩

section Walks

variable {F : Family} {run : Component F → SpeciesList → Component F × SpeciesList}
  {l l' : Roster F} {c : Component F} {species species' : SpeciesList} {passed : List ObjectId}
  (hrun : ∀ (c c' : Component F) species species',
    c.Visit species c' species' ↔ run c species = (c', species'))

include hrun

/-- A walk that comes to a member runs that and goes on along its link. -/
theorem walk_next_iff {object : ObjectId} {link : Link} (found : l.get? object = some c)
    (linked : c.link = some link) :
    l.Walk (.next object) species passed l' species' ↔
      ∃ passed', passed = object :: passed' ∧
        (l.updateParams object fun _ => (run c species).1.params).Walk link (run c species).2
          passed' l' species' := by
  constructor
  · rintro (_ | ⟨found', linked', visit, rest⟩)
    rw [found, Option.some.injEq] at found'
    subst found'
    rw [linked, Option.some.injEq] at linked'
    subst linked'
    rw [(hrun _ _ _ _).mp visit]
    exact ⟨_, rfl, rest⟩
  · rintro ⟨passed', rfl, rest⟩
    exact .next found linked ((hrun _ _ _ _).mpr rfl) rest

namespace Intact

/-- A walk from the member that joined after `i` others runs that one first. -/
theorem walk_first_succ_iff (h : l.Intact) {i : Nat} (hc : l.members[i]? = some c) :
    l.Walk (l.first (i + 1)).nextLink species passed l' species' ↔
      ∃ passed', passed = c.object :: passed' ∧
        ({ l with members := l.members.set i (run c species).1 } : Roster F).Walk
          (({ l with members := l.members.set i (run c species).1 } : Roster F).first i).nextLink
          (run c species).2 passed' l' species' := by
  have hfound := h.get?_eq_some.mpr ⟨List.mem_of_getElem? hc, rfl⟩
  have hfirst : ({ l with members := l.members.set i (run c species).1 } : Roster F).first i =
      l.first i := by
    simp only [Roster.first, List.take_set_of_le (Nat.le_refl i)]
  rw [nextLink_first_succ hc, walk_next_iff hrun hfound (h.chained i _ hc).2, hfirst,
    (h.set_visited hc ((hrun _ _ _ _).mpr rfl)).1]

/-- A walk from the member that joined `i`-th runs those that joined before it, and leaves the others
alone. -/
theorem walk_first_iff (h : l.Intact) {i : Nat} (hi : i ≤ l.members.length) :
    l.Walk (l.first i).nextLink species passed l' species' ↔
      passed = (l.members.take i).reverse.map Component.object ∧
        l' = { l with members :=
          (Component.runEach run (l.members.take i) species).1 ++ l.members.drop i } ∧
        species' = (Component.runEach run (l.members.take i) species).2 := by
  -- every visit makes another list, which the rest of the walk is on
  induction i generalizing l species passed with
  | zero =>
      constructor
      · rintro ⟨⟩
        exact ⟨rfl, rfl, rfl⟩
      · rintro ⟨hpassed, hl', hspecies⟩
        rw [hpassed, hl', hspecies]
        exact .last
  | succ i ih =>
      have hc := List.getElem?_eq_getElem hi
      generalize hci : l.members[i] = c at hc
      have htake : l.members.take (i + 1) = l.members.take i ++ [c] := by
        rw [List.take_add_one, hc, Option.toList_some]
      have hdrop : (l.members.set i (run c species).1).drop i =
          (run c species).1 :: l.members.drop (i + 1) := by
        rw [List.drop_set, if_neg (Nat.lt_irrefl i), Nat.sub_self, List.drop_eq_getElem_cons hi,
          List.set_cons_zero]
      have hvisit : c.Visit species (run c species).1 (run c species).2 := (hrun _ _ _ _).mpr rfl
      have hset := (h.set_visited hc hvisit).2
      have hi' : i ≤ (l.members.set i (run c species).1).length := by
        simpa using Nat.le_of_succ_le hi
      rw [h.walk_first_succ_iff hrun hc]
      simp only [ih hset hi', hdrop, List.take_set_of_le (Nat.le_refl i), htake, List.reverse_concat,
        List.map_cons, Component.runEach_concat, List.append_assoc, List.singleton_append]
      constructor
      · rintro ⟨_, rfl, rfl, rfl, rfl⟩
        exact ⟨rfl, rfl, rfl⟩
      · rintro ⟨rfl, rfl, rfl⟩
        exact ⟨_, rfl, rfl, rfl, rfl⟩

/-- **There is one walk from the head.**  It passes every member, the last to join first, and does
what running the members from the end does. -/
theorem walk_iff (h : l.Intact) :
    l.Walk l.nextLink species passed l' species' ↔
      passed = l.native.map Component.object ∧
        ({ l with members := (Component.runEach run l.members species).1 },
          (Component.runEach run l.members species).2) = (l', species') := by
  have hall : l.Walk (l.first l.members.length).nextLink species passed l' species' ↔ _ :=
    h.walk_first_iff hrun (Nat.le_refl _)
  rw [first_size, List.take_length, List.drop_length, List.append_nil] at hall
  rw [hall, Prod.mk.injEq, native, eq_comm (a := l'), eq_comm (a := species')]

end Intact

end Walks

/-- **Running the collision operators of an intact list is one walk** from its head on. -/
theorem Intact.collide_walk {l l' : Roster .collision} (h : l.Intact)
    {species species' : SpeciesList} {passed : List ObjectId} :
    l.Walk l.nextLink species passed l' species' ↔
      passed = l.native.map Component.object ∧ l.collide species = (l', species') :=
  h.walk_iff fun _ _ _ _ => Component.visit_iff_collide

/-- **Running the emitters of an intact list is one walk** from its head on. -/
theorem Intact.emit_walk {l l' : Roster .emitter} (h : l.Intact) {species species' : SpeciesList}
    {passed : List ObjectId} :
    l.Walk l.nextLink species passed l' species' ↔
      passed = l.native.map Component.object ∧ l.emit species = (l', species') :=
  h.walk_iff fun _ _ _ _ => Component.visit_iff_emit

end Roster

/-! ### Voxels -/

namespace Component

/-- How many voxels an emitter has, if it is sized. -/
def voxelCount? (c : Component .emitter) : Option Nat :=
  let params : EmitterParams := c.params
  params.voxels.map Array.size

/-- A behavior overwrites voxels but neither adds nor removes any. -/
theorem emit_voxelCount? (c : Component .emitter) (species : SpeciesList) :
    (c.emit species).1.voxelCount? = c.voxelCount? := by
  simp only [emit]
  split
  · rfl
  · next sized => simp only [voxelCount?, sized, Option.map_some, Vector.size_toArray]
  · next unsized => simp only [voxelCount?, unsized]

/-- What no behavior changes is the same after all have run. -/
theorem map_runEach {F : Family} {run : Component F → SpeciesList → Component F × SpeciesList}
    {β : Type} {f : Component F → β} (hf : ∀ c species, f (run c species).1 = f c)
    (cs : List (Component F)) (species : SpeciesList) :
    (runEach run cs species).1.map f = cs.map f := by
  induction cs with
  | nil => rfl
  | cons c cs ih => rw [runEach, List.map_cons, List.map_cons, hf, ih]

end Component

/-- Emitters keep their voxels, and those without any still have none. -/
theorem Roster.emit_voxels (l : Roster .emitter) (species : SpeciesList) :
    (l.emit species).1.members.map Component.voxelCount? =
      l.members.map Component.voxelCount? :=
  Component.map_runEach Component.emit_voxelCount? l.members species

end ParticleSim
