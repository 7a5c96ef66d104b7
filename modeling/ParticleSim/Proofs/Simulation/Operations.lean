import ParticleSim.Recipe
import ParticleSim.Proofs.Checkpoint.Words
import ParticleSim.Proofs.Simulation.Inventory

/-!
# Simulation — What the operations do

On a sound simulation a definition either finds no function for its behavior and changes nothing, or
its component joins the list (`Simulation.Sound.define_eq`): registered under a new identity, it is
refused by no list.  Every operation leaves a sound simulation behind, whether it succeeds or not,
as long as the cursor does not wrap (`SimulationM.Tame`, `Simulation.Sound.clearList`, …).
-/

namespace ParticleSim

namespace Roster

variable {F : Family}

/-- Forgetting the members of a list removes them from the registry, and nothing else. -/
theorem entries_forgetMembers (l : Roster F) (r : Registry) :
    (l.forgetMembers r).entries.entries =
        r.entries.entries.filter (fun e => decide (e.1 ∉ l.members.map Component.object)) ∧
      (l.forgetMembers r).cursor = r.cursor := by
  have hfold : ∀ (cs : List (Component F)) (r : Registry),
      (cs.foldl (fun r c => r.forget c.object) r).entries.entries =
          r.entries.entries.filter (fun e => decide (e.1 ∉ cs.map Component.object)) ∧
        (cs.foldl (fun r c => r.forget c.object) r).cursor = r.cursor := by
    intro cs
    induction cs with
    | nil => simp
    | cons c cs ih =>
        intro r
        obtain ⟨hentries, hcursor⟩ := ih (r.forget c.object)
        refine ⟨?_, hcursor⟩
        rw [List.foldl_cons, hentries, Registry.forget, OrderedMap.erase, List.filter_filter]
        refine List.filter_congr fun e _ => ?_
        rw [Bool.eq_iff_iff]
        simp [and_comm]
  obtain ⟨hentries, hcursor⟩ := hfold l.native r
  refine ⟨?_, hcursor⟩
  rw [forgetMembers, hentries]
  simp [native]

end Roster

/-- The simulation that an operation leaves behind, whether it succeeds or not. -/
def SimulationM.leaves {α : Type} (m : SimulationM α) (s : Simulation) : Simulation :=
  match m s with
  | .ok _ s' => s'
  | .error _ s' => s'

namespace Simulation

variable {s s' : Simulation}

/-! ### Definitions -/

/-- The simulation after a component with the next identity has joined its list. -/
def joined {F : Family} (s : Simulation) (c : Component F) : Simulation :=
  { s with registry := s.registry.register F.tag }.setList
    { s.list F with
      members := (s.list F).members ++
        [c.attach (F.nextId c.kind (s.list F).count) (s.list F).nextLink] }

theorem list_withRegistry (s : Simulation) (r : Registry) (F : Family) :
    ({ s with registry := r }).list F = s.list F := by
  cases F <;> rfl

theorem list_setList {F : Family} (s : Simulation) (l : Roster F) : (s.setList l).list F = l := by
  cases F <;> rfl

theorem list_setList_of_ne {F G : Family} (s : Simulation) (l : Roster F) (h : G ≠ F) :
    (s.setList l).list G = s.list G := by
  cases F <;> cases G <;> first | rfl | exact absurd rfl h

theorem registry_setList {F : Family} (s : Simulation) (l : Roster F) :
    (s.setList l).registry = s.registry := by
  cases F <;> rfl

/-- A component that the list takes in joins it. -/
theorem adopt_of_ok {F : Family} {c : Component F} {l : Roster F}
    (h : (s.list F).append c = .ok l) :
    adopt c s = .ok c.object (s.setList l) := by
  rw [adopt, get_bind, h]
  rfl

/-- A component that the list refuses is forgotten. -/
theorem adopt_of_error {F : Family} {c : Component F} {e : ComponentError}
    (h : (s.list F).append c = .error e) :
    adopt c s = .error e { s with registry := s.registry.forget c.object } := by
  rw [adopt, get_bind, h]
  rfl

/-- A component that was just registered joins its list. -/
theorem Sound.adopt_eq (h : s.Sound) {F : Family} {c : Component F}
    (ho : c.object = s.registry.nextId) (hl : c.link = none) :
    adopt c { s with registry := s.registry.register F.tag } = .ok c.object (s.joined c) := by
  refine adopt_of_ok ?_
  rw [list_withRegistry]
  exact Roster.append_eq_ok.mpr ⟨hl, ho ▸ h.not_contains_nextId F, rfl⟩

theorem create_eq (s : Simulation) (F : Family) (name : String) (kind : F.Kind) (params : F.Params)
    (symbol : Option String) :
    create F name kind params symbol s =
      match s.behaviors.bind F symbol with
      | .error symbol => .error (.unknownBehavior F symbol) s
      | .ok behavior =>
        .ok (Component.unlinked s.registry.nextId name kind params behavior)
          { s with registry := s.registry.register F.tag } := by
  rw [create, get_bind, Component.create]
  cases s.behaviors.bind F symbol <;> rfl

/-- **A definition joins its list or finds no function**, and in the latter case changes nothing. -/
theorem Sound.define_eq (h : s.Sound) (F : Family) (name : String) (kind : F.Kind)
    (params : F.Params) (symbol : Option String) :
    define F name kind params symbol s =
      match s.behaviors.bind F symbol with
      | .error symbol => .error (.unknownBehavior F symbol) s
      | .ok behavior =>
        .ok s.registry.nextId
          (s.joined (Component.unlinked s.registry.nextId name kind params behavior)) := by
  rw [define]
  have hc := create_eq s F name kind params symbol
  cases hb : s.behaviors.bind F symbol with
  | error symbol =>
      rw [hb] at hc
      exact bind_of_error hc _
  | ok behavior =>
      rw [hb] at hc
      exact (bind_of_ok hc _).trans (h.adopt_eq rfl rfl)

/-- An emitter is sized before it joins; one that has a buffer already is forgotten. -/
theorem Sound.defineEmitter_eq (h : s.Sound) (name : String) (kind : EmitterKind)
    (params : EmitterParams) (symbol : Option String) (voxels : Option Nat) :
    defineEmitter name kind params symbol voxels s =
      match s.behaviors.bind .emitter symbol, voxels, params.voxels with
      | .error symbol, _, _ => .error (.unknownBehavior .emitter symbol) s
      | .ok _, some _, some _ =>
        .error (.alreadySized name)
          { s with registry := (s.registry.register Family.emitter.tag).forget s.registry.nextId }
      | .ok behavior, some n, none =>
        .ok s.registry.nextId
          (s.joined (F := .emitter) (Component.unlinked s.registry.nextId name kind
            ({ params with voxels := some (Array.replicate n 0) } : EmitterParams) behavior))
      | .ok behavior, none, _ =>
        .ok s.registry.nextId
          (s.joined (F := .emitter)
            (Component.unlinked s.registry.nextId name kind params behavior)) := by
  rw [defineEmitter]
  have hc := create_eq s .emitter name kind params symbol
  cases hb : s.behaviors.bind .emitter symbol with
  | error symbol =>
      rw [hb] at hc
      exact bind_of_error hc _
  | ok behavior =>
      rw [hb] at hc
      rw [bind_of_ok hc]
      cases voxels with
      | none => exact h.adopt_eq rfl rfl
      | some n =>
          obtain ⟨state, buffer⟩ := params
          cases buffer with
          | none => exact h.adopt_eq rfl rfl
          | some _ => rfl

/-- Defining a species changes the species, or nothing. -/
theorem defineSpecies_cases (s : Simulation) (name : String) (charge mass : Real32) :
    (∃ e, s.species.define name charge mass = .error e ∧
      defineSpecies name charge mass s = .error e s) ∨
    ∃ species, defineSpecies name charge mass s = .ok s.species.size { s with species } := by
  rw [defineSpecies, get_bind]
  cases s.species.define name charge mass with
  | error e => exact .inl ⟨e, rfl, rfl⟩
  | ok species => exact .inr ⟨species, rfl⟩

/-- Defining the field array changes the field, or nothing. -/
theorem defineField_cases (s : Simulation) (damping : Real32) :
    defineField damping s = .error (.configuration .fieldDefined) s ∨
      defineField damping s = .ok () { s with field := some damping } := by
  rw [defineField, get_bind]
  cases s.field with
  | some _ => exact .inl rfl
  | none => exact .inr rfl

/-! ### Definitions keep a simulation sound -/

theorem lt_succ_of_le_succ {v : UInt64} (h : v ≤ v + 1) : v < v + 1 :=
  UInt64.lt_of_le_of_ne h (by simp)

theorem Sound.joined (h : s.Sound) {F : Family} {c : Component F}
    (ho : c.object = s.registry.nextId) (hw : s.registry.cursor ≤ s.registry.cursor + 1) :
    (s.joined c).Sound := by
  have hreg : (s.joined c).registry = s.registry.register F.tag := registry_setList _ _
  have hfresh := h.nextId_fresh
  refine ⟨?_, ?_, fun G => ?_⟩
  · -- the list has one item more, behind the others, and the registry has the same one
    rw [hreg, Registry.entries_register _ hfresh]
    have hset := inventory_setList_perm (s := { s with registry := s.registry.register F.tag })
      (l := { s.list F with members := (s.list F).members ++
        [c.attach (F.nextId c.kind (s.list F).count) (s.list F).nextLink] })
      (congrArg Roster.object (list_withRegistry s _ F)).symm
    have hinv : ({ s with registry := s.registry.register F.tag }.setList
        (({ s with registry := s.registry.register F.tag }).list F).clear).inventory =
        (s.setList (s.list F).clear).inventory := by
      cases F <;> rfl
    have hitems : ({ s.list F with members := (s.list F).members ++
        [c.attach (F.nextId c.kind (s.list F).count) (s.list F).nextLink] } : Roster F).items =
        (s.list F).items ++ [(s.registry.nextId, F.tag)] := by
      simp [Roster.items, Component.attach, ho]
    rw [hinv, hitems] at hset
    refine List.Perm.trans ?_ hset.symm
    rw [List.append_assoc]
    refine ((h.owns.trans (s.inventory_perm F)).append_right _).trans ?_
    rw [List.append_assoc]
    exact List.perm_append_comm.append_left _
  · intro id hid
    rw [hreg] at hid ⊢
    rw [Registry.ids_register, if_neg hfresh, List.mem_append, List.mem_singleton] at hid
    rcases hid with hid | rfl
    · exact UInt64.lt_of_lt_of_le (h.below id hid) hw
    · exact lt_succ_of_le_succ hw
  · by_cases hG : G = F
    · subst hG
      rw [Simulation.joined, list_setList]
      exact (h.chained G).concat rfl rfl
    · rw [Simulation.joined, list_setList_of_ne _ _ hG, list_withRegistry]
      exact h.chained G

/-- A registration that is taken back costs an identity and nothing else. -/
theorem Sound.forget_register (h : s.Sound) (tag : String)
    (hw : s.registry.cursor ≤ s.registry.cursor + 1) :
    ({ s with registry := (s.registry.register tag).forget s.registry.nextId }).Sound := by
  have hentries := Registry.entries_forget_register tag h.nextId_fresh
  refine ⟨?_, ?_, fun F => ?_⟩
  · exact hentries ▸ h.owns
  · intro id hid
    have hid' : id ∈ s.registry.ids := by
      rw [Registry.ids, OrderedMap.keys, hentries] at hid
      exact hid
    exact UInt64.lt_of_lt_of_le (h.below id hid') hw
  · rw [list_withRegistry]
    exact h.chained F

/-! ### Steps and teardown -/

theorem interact_retuned {id : ComponentId} {hit : Hit} {d : Disposition}
    (h : s.interact id hit = .ok (d, s')) : s.Retuned s' := by
  rw [interact] at h
  split at h
  · cases h
  · next hl =>
    cases h
    refine ⟨rfl, rfl, rfl, fun F => ?_⟩
    cases F with
    | boundary => exact Roster.interact_retuned hl
    | collision => exact .refl _
    | emitter => exact .refl _

theorem advance_retuned (s : Simulation) : s.Retuned s.advance := by
  refine ⟨rfl, rfl, rfl, fun F => ?_⟩
  cases F with
  | boundary => exact .refl _
  | collision => exact Roster.collide_retuned _ _
  | emitter => exact Roster.emit_retuned _ _

theorem Sound.clearList (h : s.Sound) (F : Family) : (s.clearList F).Sound := by
  obtain ⟨hentries, hcursor⟩ := (s.list F).entries_forgetMembers s.registry
  refine ⟨?_, ?_, fun G => ?_⟩
  · show ((s.list F).forgetMembers s.registry).entries.entries.Perm
      (s.setList (s.list F).clear).inventory
    have hp := s.inventory_perm F
    have hn := (hp.map Prod.fst).nodup h.nodup_owned
    rw [List.map_append, List.nodup_append] at hn
    -- what is forgotten are the items of the list; the rest is not among them
    have hobjects := (s.list F).map_fst_items
    have hmembers : (s.list F).items.filter
        (fun e => decide (e.1 ∉ (s.list F).members.map Component.object)) = [] := by
      rw [List.filter_eq_nil_iff, ← hobjects]
      intro e he
      simpa using ⟨e.2, he⟩
    have hrest : (s.setList (s.list F).clear).inventory.filter
        (fun e => decide (e.1 ∉ (s.list F).members.map Component.object)) =
        (s.setList (s.list F).clear).inventory := by
      rw [List.filter_eq_self, ← hobjects]
      intro e he
      rw [decide_eq_true_eq]
      exact fun hm => hn.2.2 e.1 hm e.1 (List.mem_map_of_mem he) rfl
    rw [hentries]
    have hfilter := (h.owns.trans hp).filter
      (fun e => decide (e.1 ∉ (s.list F).members.map Component.object))
    rwa [List.filter_append, hmembers, hrest, List.nil_append] at hfilter
  · intro id hid
    show id.val < ((s.list F).forgetMembers s.registry).cursor
    have hid' : id ∈ ((s.list F).forgetMembers s.registry).entries.entries.map Prod.fst := hid
    rw [hentries] at hid'
    rw [hcursor]
    exact h.below id ((List.filter_sublist.map Prod.fst).subset hid')
  · rw [Simulation.clearList, list_withRegistry]
    by_cases hG : G = F
    · subst hG
      rw [list_setList]
      exact Roster.chained_clear _
    · rw [list_setList_of_ne _ _ hG]
      exact h.chained G

theorem Sound.reset (h : s.Sound) : s.reset.Sound :=
  ((h.clearList .boundary).clearList .collision).clearList .emitter

end Simulation

/-! ### Operations that may fail -/

/-- A check that holds changes nothing. -/
theorem Recipe.require_of_ok {α : Type} {check : Simulation → Except ComponentError α}
    {s : Simulation} {a : α} (h : check s = .ok a) : Recipe.require check s = .ok a s := by
  rw [Recipe.require, get_bind, h]
  rfl

/-- A check that does not hold changes nothing, either. -/
theorem Recipe.require_of_error {α : Type} {check : Simulation → Except ComponentError α}
    {s : Simulation} {e : ComponentError} (h : check s = .error e) :
    Recipe.require check s = .error e s := by
  rw [Recipe.require, get_bind, h]
  rfl

/-- What comes after a check that holds. -/
theorem Recipe.require_bind_eq_ok {α β : Type} {check : Simulation → Except ComponentError α}
    {next : α → SimulationM β} {s s' : Simulation} {b : β} :
    (Recipe.require check >>= next) s = .ok b s' ↔ ∃ a, check s = .ok a ∧ next a s = .ok b s' := by
  cases h : check s with
  | error e => simp [bind_of_error (Recipe.require_of_error h)]
  | ok a => simp [bind_of_ok (Recipe.require_of_ok h)]

/-- An operation leaves a sound simulation sound unless the cursor wraps, and never finds that a
component is in a list already. -/
structure SimulationM.Tame {α : Type} (m : SimulationM α) : Prop where
  sound : ∀ s, s.Sound → s.registry.cursor ≤ (m.leaves s).registry.cursor → (m.leaves s).Sound
  unlinked : ∀ s, s.Sound → ∀ name s', m s ≠ .error (.alreadyLinked name) s'

namespace SimulationM

variable {α β : Type}

theorem tame_define (F : Family) (name : String) (kind : F.Kind) (params : F.Params)
    (symbol : Option String) : Tame (Simulation.define F name kind params symbol) := by
  constructor
  · intro s hs hw
    rw [leaves, hs.define_eq] at hw ⊢
    cases hb : s.behaviors.bind F symbol with
    | error symbol => rw [hb] at hw; exact hs
    | ok behavior =>
        rw [hb] at hw
        simp only [Simulation.joined, Simulation.registry_setList] at hw
        exact hs.joined rfl hw
  · intro s hs name' s'
    rw [hs.define_eq]
    cases s.behaviors.bind F symbol <;> simp

theorem tame_defineEmitter (name : String) (kind : EmitterKind) (params : EmitterParams)
    (symbol : Option String) (voxels : Option Nat) :
    Tame (Simulation.defineEmitter name kind params symbol voxels) := by
  constructor
  · intro s hs hw
    rw [leaves, hs.defineEmitter_eq] at hw ⊢
    cases hb : s.behaviors.bind .emitter symbol with
    | error symbol => rw [hb] at hw; exact hs
    | ok behavior =>
        rw [hb] at hw
        rcases voxels with _ | n <;> rcases hv : params.voxels with _ | buffer <;>
          simp only [hv] at hw ⊢
        · exact hs.joined rfl hw
        · exact hs.joined rfl hw
        · exact hs.joined rfl hw
        · exact hs.forget_register _ hw
  · intro s hs name' s'
    rw [hs.defineEmitter_eq]
    cases s.behaviors.bind .emitter symbol <;> cases voxels <;> cases params.voxels <;> simp

theorem tame_defineSpecies (name : String) (charge mass : Real32) :
    Tame (Simulation.defineSpecies name charge mass) := by
  constructor
  · intro s hs _
    rcases Simulation.defineSpecies_cases s name charge mass with ⟨e, -, he⟩ | ⟨species, hspecies⟩
    · rw [leaves, he]
      exact hs
    · rw [leaves, hspecies]
      exact hs.retuned ⟨rfl, rfl, rfl, fun F => by cases F <;> exact .refl _⟩
  · intro s _ name' s' h
    rcases Simulation.defineSpecies_cases s name charge mass with
      ⟨e, hdefined, he⟩ | ⟨species, hspecies⟩
    · rw [he] at h
      cases h
      rw [SpeciesList.define] at hdefined
      split at hdefined <;> cases hdefined
    · rw [hspecies] at h
      cases h

theorem tame_defineField (damping : Real32) : Tame (Simulation.defineField damping) := by
  constructor
  · intro s hs _
    rcases Simulation.defineField_cases s damping with h | h
    · rw [leaves, h]
      exact hs
    · rw [leaves, h]
      exact hs.retuned ⟨rfl, rfl, rfl, fun F => by cases F <;> exact .refl _⟩
  · intro s _ name' s'
    rcases Simulation.defineField_cases s damping with h | h <;> rw [h] <;> simp

/-- A check that only looks at the simulation, in front of an operation. -/
theorem Tame.require {check : Simulation → Except ComponentError α} {next : α → SimulationM β}
    (hc : ∀ s name, check s ≠ .error (.alreadyLinked name)) (hn : ∀ a, Tame (next a)) :
    Tame (Recipe.require check >>= next) := by
  have heq : ∀ s, (Recipe.require check >>= next) s =
      match check s with
      | .error e => .error e s
      | .ok a => next a s := by
    intro s
    cases h : check s with
    | error e => exact bind_of_error (Recipe.require_of_error h) next
    | ok a => exact bind_of_ok (Recipe.require_of_ok h) next
  constructor
  · intro s hs hw
    rw [leaves, heq] at hw ⊢
    cases h : check s with
    | error e => exact hs
    | ok a =>
        rw [h] at hw
        exact (hn a).sound s hs hw
  · intro s hs name s'
    rw [heq]
    cases h : check s with
    | error e =>
        rintro ⟨⟩
        exact hc s name h
    | ok a => exact (hn a).unlinked s hs name s'

/-- An operation that depends on the simulation it finds. -/
theorem Tame.get {next : Simulation → SimulationM β} (hn : ∀ s, Tame (next s)) :
    Tame (MonadState.get >>= next) := by
  have heq : ∀ s, (MonadState.get >>= next : SimulationM β) s = next s s := get_bind next
  constructor
  · intro s hs hw
    rw [leaves, heq] at hw ⊢
    exact (hn s).sound s hs hw
  · intro s hs name s'
    rw [heq]
    exact (hn s).unlinked s hs name s'

end SimulationM

end ParticleSim
