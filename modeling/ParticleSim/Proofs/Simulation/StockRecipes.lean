import ParticleSim.Proofs.Simulation.Histories

/-!
# Simulation — What stock recipes make

A stock recipe makes the component that it is told to make, or changes nothing at all.  Which of the
two it does can be read off the simulation beforehand (`StockRecipe.Fits`): the name must be new in
the list, the behavior must be in the table, and a recipe that counts or reinjects needs species,
one that reinjects also both speeds of each.

An operation of this kind is `SimulationM.Atomic`.  A check in front of an atomic operation makes it
ask for more and leaves it atomic (`SimulationM.Atomic.require`), and a definition is atomic in
itself (`Simulation.Sound.define_atomic`); so the order of the checks of a recipe does not matter.

* `Simulation.Reached.definitions_atomic`: stock recipes are atomic, and so are direct definitions,
  except that an emitter which is sized twice costs an identity.
-/

namespace ParticleSim

variable {F : Family}

/-! ### What there is to make -/

/-- The speeds that are given for species, in species order. -/
def SpeciesList.speeds (species : SpeciesList) (given : OrderedMap String Real32) : List Real32 :=
  species.names.filterMap given.find?

/-- Every species has a speed. -/
def SpeciesList.Covered (species : SpeciesList) (given : OrderedMap String Real32) : Prop :=
  ∀ name ∈ species.names, (given.find? name).isSome

/-- If every species has a speed, there is one for each. -/
theorem SpeciesList.Covered.map_some_speeds {species : SpeciesList}
    {given : OrderedMap String Real32} (h : species.Covered given) :
    (species.speeds given).map some = species.names.map given.find? := by
  rw [Covered] at h
  rw [speeds]
  generalize species.names = names at h ⊢
  induction names with
  | nil => rfl
  | cons name names ih =>
      obtain ⟨hname, hnames⟩ := List.forall_mem_cons.mp h
      obtain ⟨speed, hspeed⟩ := Option.isSome_iff_exists.mp hname
      rw [List.filterMap_cons_some hspeed, List.map_cons, List.map_cons, ih hnames, hspeed]

/-- A stock recipe, as what it is told. -/
inductive StockRecipe : Family → Type where
  | reflecting (name : String) : StockRecipe .boundary
  | absorbing (name : String) : StockRecipe .boundary
  | refluxing (name : String) (parallel perpendicular : OrderedMap String Real32) :
      StockRecipe .boundary
  | tallying (name : String) : StockRecipe .boundary
  | colliding (name : String) (kind : CollisionKind) (symbol : Option String) (params : Bytes) :
      StockRecipe .collision
  | emitting (name : String) (kind : EmitterKind) (symbol : Option String) (state : Bytes)
      (voxels : Option Nat) : StockRecipe .emitter

namespace StockRecipe

/-- The recipe itself. -/
def recipe : StockRecipe F → Recipe F
  | reflecting name => .reflecting name
  | absorbing name => .absorbing name
  | refluxing name parallel perpendicular => .refluxing name parallel perpendicular
  | tallying name => .tallying name
  | colliding name kind symbol params => .colliding name kind symbol params
  | emitting name kind symbol state voxels => .emitting name kind symbol state voxels

/-- The name of the component. -/
def name : StockRecipe F → String
  | reflecting name | absorbing name | refluxing name _ _ | tallying name => name
  | colliding name _ _ _ => name
  | emitting name _ _ _ _ => name

/-- The kind of the component. -/
def kind : StockRecipe F → F.Kind
  | reflecting _ => BoundaryKind.reflect
  | absorbing _ => BoundaryKind.absorb
  | refluxing _ _ _ => BoundaryKind.maxwellianReflux
  | tallying _ => BoundaryKind.absorbTally
  | colliding _ kind _ _ => kind
  | emitting _ kind _ _ _ => kind

/-- The symbol of the behavior that the component has, if it has one. -/
def symbol : StockRecipe F → Option String
  | reflecting _ | absorbing _ => none
  | refluxing _ _ _ => "maxwellian_reflux"
  | tallying _ => "absorb_tally"
  | colliding _ _ symbol _ => symbol
  | emitting _ _ symbol _ _ => symbol

/-- The parameters that the component has in a simulation with the given species. -/
def params (species : SpeciesList) : StockRecipe F → F.Params
  | reflecting _ | absorbing _ => BoundaryParams.none
  | refluxing _ parallel perpendicular =>
    BoundaryParams.reflux (species.speeds parallel) (species.speeds perpendicular)
  | tallying _ => BoundaryParams.tally (List.replicate species.size 0)
  | colliding _ _ _ params => params
  | emitting _ _ _ state voxels =>
    ({ state, voxels := voxels.map fun n => Array.replicate n 0 } : EmitterParams)

/-- Whether the recipe is about species, of which there must be one then. -/
def perSpecies : StockRecipe F → Bool
  | refluxing _ _ _ | tallying _ => true
  | reflecting _ | absorbing _ | colliding _ _ _ _ | emitting _ _ _ _ _ => false

/-- The speeds that the recipe is told. -/
def speeds : StockRecipe F → List (OrderedMap String Real32)
  | refluxing _ parallel perpendicular => [parallel, perpendicular]
  | _ => []

/-- A recipe finds what it needs. -/
structure Fits (d : StockRecipe F) (s : Simulation) : Prop where
  new : ∀ c ∈ (s.list F).members, c.name ≠ d.name
  bound : ∀ symbol ∈ d.symbol, ((s.behaviors.table F).find? symbol).isSome
  species : d.perSpecies = true → s.species.isEmpty = false
  speeds : ∀ given ∈ d.speeds, s.species.Covered given

/-- A recipe that is not about species needs a new name and its behavior. -/
theorem fits_iff {d : StockRecipe F} {s : Simulation} (hspecies : d.perSpecies = false)
    (hspeeds : d.speeds = []) :
    d.Fits s ↔ (∀ c ∈ (s.list F).members, c.name ≠ d.name) ∧
      ∀ symbol ∈ d.symbol, ((s.behaviors.table F).find? symbol).isSome := by
  constructor
  · exact fun hd => ⟨hd.new, hd.bound⟩
  · rintro ⟨hn, hb⟩
    refine ⟨hn, hb, fun h => ?_, fun given hg => ?_⟩
    · rw [hspecies] at h
      cases h
    · rw [hspeeds] at hg
      exact absurd hg List.not_mem_nil

end StockRecipe

/-- The stock recipes are the recipes that the library offers. -/
theorem Recipe.stock_iff {r : Recipe F} : r.Stock ↔ ∃ d : StockRecipe F, d.recipe = r := by
  constructor
  · intro h
    cases h with
    | reflecting name => exact ⟨.reflecting name, rfl⟩
    | absorbing name => exact ⟨.absorbing name, rfl⟩
    | refluxing name parallel perpendicular =>
        exact ⟨.refluxing name parallel perpendicular, rfl⟩
    | tallying name => exact ⟨.tallying name, rfl⟩
    | colliding name kind symbol params => exact ⟨.colliding name kind symbol params, rfl⟩
    | emitting name kind symbol state voxels =>
        exact ⟨.emitting name kind symbol state voxels, rfl⟩
  · rintro ⟨d, rfl⟩
    cases d <;> constructor

/-- A component is as it was to be made: it has this name, kind and parameters, and the behavior of
the symbol. -/
structure Component.Made (c : Component F) (behaviors : Behaviors) (name : String) (kind : F.Kind)
    (params : F.Params) (symbol : Option String) : Prop where
  name : c.name = name
  kind : c.kind = kind
  params : c.params = params
  behavior : behaviors.bind F symbol = .ok c.behavior

/-- A component is the one that a recipe describes, as far as behaviors and species are those of the
simulation. -/
def StockRecipe.Describes (d : StockRecipe F) (s : Simulation) (c : Component F) : Prop :=
  c.Made s.behaviors d.name d.kind (d.params s.species) d.symbol

/-- A simulation has one component more, with the next identity, at the end of the registry and at
the end of its list; nothing else has changed. -/
structure Simulation.Gains (s : Simulation) (c : Component F) (s' : Simulation) : Prop where
  object : c.object = s.registry.nextId
  id : c.id = some (F.nextId c.kind (s.list F).count)
  link : c.link = some (s.list F).nextLink
  entries : s'.registry.entries.entries =
    s.registry.entries.entries ++ [(s.registry.nextId, F.tag)]
  cursor : s'.registry.cursor = s.registry.cursor + 1
  list : s'.list F = { s.list F with members := (s.list F).members ++ [c] }
  rest : s' = ({ s with registry := s'.registry } : Simulation).setList (s'.list F)

/-! ### Atomic operations -/

/-- At `s` an operation succeeds exactly when it finds what it needs, and then it is done; otherwise
it changes nothing. -/
structure SimulationM.Atomic {α : Type} (m : SimulationM α) (s : Simulation) (needs : Prop)
    (done : α → Simulation → Prop) : Prop where
  ok : needs → ∃ a s', m s = .ok a s' ∧ done a s'
  error : ¬ needs → ∃ e, m s = .error e s

namespace SimulationM

variable {α β : Type} {s : Simulation} {needs needs' : Prop} {done : β → Simulation → Prop}

namespace Atomic

variable {m : SimulationM β}

theorem ok_iff (h : Atomic m s needs done) : (∃ b s', m s = .ok b s') ↔ needs := by
  constructor
  · rintro ⟨b, s', hm⟩
    by_contra hn
    obtain ⟨e, he⟩ := h.error hn
    rw [hm] at he
    cases he
  · intro hn
    obtain ⟨b, s', hm, -⟩ := h.ok hn
    exact ⟨b, s', hm⟩

theorem done_of_ok (h : Atomic m s needs done) {b : β} {s' : Simulation} (hm : m s = .ok b s') :
    done b s' := by
  obtain ⟨b', s'', hm', hd⟩ := h.ok (h.ok_iff.mp ⟨b, s', hm⟩)
  rw [hm] at hm'
  cases hm'
  exact hd

theorem eq_of_error (h : Atomic m s needs done) {e : ComponentError} {s' : Simulation}
    (hm : m s = .error e s') : s' = s := by
  have hn : ¬ needs := by
    intro hn
    obtain ⟨b, s'', hm', -⟩ := h.ok hn
    rw [hm] at hm'
    cases hm'
  obtain ⟨e', he⟩ := h.error hn
  rw [hm] at he
  cases he
  rfl

theorem congr (h : Atomic m s needs done) (hn : needs' ↔ needs) : Atomic m s needs' done :=
  ⟨fun hneeds => h.ok (hn.mp hneeds), fun hneeds => h.error fun h' => hneeds (hn.mpr h')⟩

/-! ### Checks in front of an operation -/

variable {next : α → SimulationM β}

/-- A check makes an operation ask for more. -/
theorem require {check : Simulation → Except ComponentError α} {a : α} {passes : Prop}
    (hok : passes → check s = .ok a) (herror : ¬ passes → ∃ e, check s = .error e)
    (hnext : Atomic (next a) s needs done) :
    Atomic (Recipe.require check >>= next) s (passes ∧ needs) done := by
  have hfails (hp : ¬ passes) : ∃ e, (Recipe.require check >>= next) s = .error e s := by
    obtain ⟨e, he⟩ := herror hp
    exact ⟨e, bind_of_error (Recipe.require_of_error he) next⟩
  have hgoes (hp : passes) : (Recipe.require check >>= next) s = next a s :=
    bind_of_ok (Recipe.require_of_ok (hok hp)) next
  constructor
  · rintro ⟨hp, hn⟩
    rw [hgoes hp]
    exact hnext.ok hn
  · intro hn
    by_cases hp : passes
    · rw [hgoes hp]
      exact hnext.error fun h => hn ⟨hp, h⟩
    · exact hfails hp

theorem requireNew {next : Unit → SimulationM β} (F : Family) (name : String)
    (hnext : Atomic (next ()) s needs done) :
    Atomic (Recipe.requireNew F name >>= next) s
      ((∀ c ∈ (s.list F).members, c.name ≠ name) ∧ needs) done := by
  have hany : (s.list F).members.any (·.name = name) = true ↔
      ¬ ∀ c ∈ (s.list F).members, c.name ≠ name := by
    simp
  refine require (fun hp => ?_) (fun hp => ?_) hnext
  · rw [Roster.requireNew, if_neg fun h => hany.mp h hp]
  · exact ⟨_, by rw [Roster.requireNew, if_pos (hany.mpr hp)]⟩

theorem requireSpecies {next : Unit → SimulationM β} (name : String)
    (hnext : Atomic (next ()) s needs done) :
    Atomic (Recipe.requireSpecies name >>= next) s (s.species.isEmpty = false ∧ needs) done := by
  refine require (fun hp => ?_) (fun hp => ?_) hnext
  · rw [hp]; rfl
  · rw [Bool.not_eq_false] at hp
    exact ⟨_, by rw [hp]; rfl⟩

/-- An operation that looks at the simulation first. -/
theorem get {next : Simulation → SimulationM β} (hnext : Atomic (next s) s needs done) :
    Atomic (MonadState.get >>= next) s needs done := by
  have heq : (MonadState.get >>= next : SimulationM β) s = next s s := get_bind next s
  exact ⟨fun hn => heq ▸ hnext.ok hn, fun hn => heq ▸ hnext.error hn⟩

end Atomic

/-! ### Speeds -/

/-- Speeds of all species are found in species order. -/
theorem thermalSpeeds_of_covered {given : OrderedMap String Real32}
    (missing : String → ConfigurationFault) {species : SpeciesList} (h : species.Covered given) :
    Recipe.thermalSpeeds given missing species = .ok (species.speeds given) := by
  rw [SpeciesList.Covered] at h
  rw [Recipe.thermalSpeeds, SpeciesList.speeds]
  generalize species.names = names at h ⊢
  induction names with
  | nil => rfl
  | cons name names ih =>
      obtain ⟨hname, hnames⟩ := List.forall_mem_cons.mp h
      obtain ⟨speed, hspeed⟩ := Option.isSome_iff_exists.mp hname
      rw [List.mapM_cons, ih hnames, List.filterMap_cons_some hspeed, hspeed]
      rfl

/-- Without the speed of some species none is found. -/
theorem thermalSpeeds_of_not_covered {given : OrderedMap String Real32}
    (missing : String → ConfigurationFault) {species : SpeciesList} (h : ¬ species.Covered given) :
    ∃ e, Recipe.thermalSpeeds given missing species = .error e := by
  rw [SpeciesList.Covered] at h
  rw [Recipe.thermalSpeeds]
  generalize species.names = names at h ⊢
  induction names with
  | nil => exact absurd (List.forall_mem_nil _) h
  | cons name names ih =>
      rw [List.forall_mem_cons, not_and] at h
      rw [List.mapM_cons]
      cases hname : given.find? name with
      | none => exact ⟨_, rfl⟩
      | some speed =>
          obtain ⟨e, he⟩ := ih (h (by rw [hname]; rfl))
          exact ⟨e, by rw [he]; rfl⟩

theorem thermalSpeeds_eq_ok {given : OrderedMap String Real32}
    {missing : String → ConfigurationFault} {species : SpeciesList} {speeds : List Real32} :
    Recipe.thermalSpeeds given missing species = .ok speeds ↔
      species.Covered given ∧ speeds = species.speeds given := by
  by_cases hc : species.Covered given
  · rw [thermalSpeeds_of_covered missing hc, Except.ok.injEq, eq_comm, and_iff_right hc]
  · obtain ⟨e, he⟩ := thermalSpeeds_of_not_covered missing hc
    simp [he, hc]

theorem Atomic.requireSpeeds {next : List Real32 → SimulationM β}
    (given : OrderedMap String Real32) (missing : String → ConfigurationFault)
    (hnext : Atomic (next (s.species.speeds given)) s needs done) :
    Atomic ((Recipe.require fun s => Recipe.thermalSpeeds given missing s.species) >>= next) s
      (s.species.Covered given ∧ needs) done :=
  require (thermalSpeeds_of_covered missing) (thermalSpeeds_of_not_covered missing) hnext

end SimulationM

/-! ### Definitions -/

/-- A behavior is bound when its symbol, if it has one, is in the table. -/
theorem Behaviors.exists_bind_iff {b : Behaviors} {symbol : Option String} :
    (∃ behavior, b.bind F symbol = .ok behavior) ↔
      ∀ name ∈ symbol, ((b.table F).find? name).isSome := by
  cases symbol with
  | none => simp [Behaviors.bind]
  | some name =>
      rw [Behaviors.bind]
      cases hf : (b.table F).find? name <;> simp [hf]

namespace Simulation

variable {s : Simulation}

/-- A component with the next identity that joins its list is all that a simulation gains. -/
theorem Sound.gains_joined (h : s.Sound) {c : Component F} (ho : c.object = s.registry.nextId) :
    s.Gains (c.attach (F.nextId c.kind (s.list F).count) (s.list F).nextLink) (s.joined c) := by
  have hregistry : (s.joined c).registry = s.registry.register F.tag := registry_setList _ _
  have hlist : (s.joined c).list F = { s.list F with
      members := (s.list F).members ++
        [c.attach (F.nextId c.kind (s.list F).count) (s.list F).nextLink] } := list_setList _ _
  refine ⟨ho, rfl, rfl, ?_, ?_, hlist, ?_⟩
  · rw [hregistry, Registry.entries_register _ h.nextId_fresh]
  · rw [hregistry]
    rfl
  · rw [hregistry, hlist]
    rfl

/-- What a definition does when it succeeds. -/
def Defines (s : Simulation) (F : Family) (name : String) (kind : F.Kind) (params : F.Params)
    (symbol : Option String) (object : ObjectId) (s' : Simulation) : Prop :=
  object = s.registry.nextId ∧
    ∃ c : Component F, c.Made s.behaviors name kind params symbol ∧ s.Gains c s'

/-- A component that a sound simulation makes and takes in is what was to be defined. -/
theorem Sound.defines_joined (h : s.Sound) {name : String} {kind : F.Kind} {params : F.Params}
    {symbol : Option String} {behavior : Option (BoundBehavior F)}
    (hb : s.behaviors.bind F symbol = .ok behavior) :
    s.Defines F name kind params symbol s.registry.nextId
      (s.joined (Component.unlinked s.registry.nextId name kind params behavior)) :=
  ⟨rfl, _, ⟨rfl, rfl, rfl, hb⟩, h.gains_joined rfl⟩

/-- A definition needs its behavior and nothing else. -/
theorem Sound.define_atomic (h : s.Sound) (F : Family) (name : String) (kind : F.Kind)
    (params : F.Params) (symbol : Option String) :
    SimulationM.Atomic (define F name kind params symbol) s
      (∀ name ∈ symbol, ((s.behaviors.table F).find? name).isSome)
      (s.Defines F name kind params symbol) := by
  have heq := h.define_eq F name kind params symbol
  rw [← Behaviors.exists_bind_iff]
  cases hb : s.behaviors.bind F symbol with
  | error symbol =>
      rw [hb] at heq
      exact ⟨fun ⟨_, hok⟩ => (nomatch hok), fun _ => ⟨_, heq⟩⟩
  | ok behavior =>
      rw [hb] at heq
      exact ⟨fun _ => ⟨_, _, heq, h.defines_joined hb⟩, fun hn => absurd ⟨_, rfl⟩ hn⟩

/-- An emitter that is not sized beforehand needs its behavior and nothing else. -/
theorem Sound.defineEmitter_atomic (h : s.Sound) (name : String) (kind : EmitterKind)
    (symbol : Option String) (state : Bytes) (voxels : Option Nat) :
    SimulationM.Atomic (defineEmitter name kind (.ofState state) symbol voxels) s
      (∀ name ∈ symbol, ((s.behaviors.table .emitter).find? name).isSome)
      (s.Defines .emitter name kind
        ({ state, voxels := voxels.map fun n => Array.replicate n 0 } : EmitterParams) symbol) := by
  have heq := h.defineEmitter_eq name kind (.ofState state) symbol voxels
  rw [← Behaviors.exists_bind_iff]
  cases hb : s.behaviors.bind .emitter symbol with
  | error symbol =>
      rw [hb] at heq
      exact ⟨fun ⟨_, hok⟩ => (nomatch hok), fun _ => ⟨_, heq⟩⟩
  | ok behavior =>
      rw [hb] at heq
      refine ⟨fun _ => ?_, fun hn => absurd ⟨_, rfl⟩ hn⟩
      cases voxels with
      | none => exact ⟨_, _, heq, h.defines_joined hb⟩
      | some n => exact ⟨_, _, heq, h.defines_joined hb⟩

/-- **A stock recipe is atomic**, and it needs what it finds when it fits. -/
theorem Sound.build_atomic (h : s.Sound) (d : StockRecipe F) :
    SimulationM.Atomic d.recipe.build s (d.Fits s)
      (s.Defines F d.name d.kind (d.params s.species) d.symbol) := by
  cases d with
  | reflecting name =>
      exact (SimulationM.Atomic.requireNew _ name (h.define_atomic ..)).congr
        (StockRecipe.fits_iff rfl rfl)
  | absorbing name =>
      exact (SimulationM.Atomic.requireNew _ name (h.define_atomic ..)).congr
        (StockRecipe.fits_iff rfl rfl)
  | refluxing name parallel perpendicular =>
      refine (SimulationM.Atomic.requireSpecies name (.requireSpeeds parallel _
        (.requireSpeeds perpendicular _ (.requireNew _ name (h.define_atomic ..))))).congr ?_
      constructor
      · intro hd
        exact ⟨hd.species rfl, hd.speeds _ List.mem_cons_self,
          hd.speeds _ (List.mem_cons_of_mem _ List.mem_cons_self), hd.new, hd.bound⟩
      · rintro ⟨hs, hparallel, hperpendicular, hn, hb⟩
        refine ⟨hn, hb, fun _ => hs, fun given hg => ?_⟩
        simp only [StockRecipe.speeds, List.mem_cons, List.not_mem_nil, or_false] at hg
        rcases hg with rfl | rfl
        · exact hparallel
        · exact hperpendicular
  | tallying name =>
      -- the number of species is read off the simulation in between
      have hdefine := h.define_atomic .boundary name .absorbTally
        (.tally (List.replicate s.species.size 0)) "absorb_tally"
      refine (SimulationM.Atomic.requireSpecies name (.requireNew _ name (.get hdefine))).congr ?_
      exact ⟨fun hd => ⟨hd.species rfl, hd.new, hd.bound⟩,
        fun ⟨hs, hn, hb⟩ => ⟨hn, hb, fun _ => hs, nofun⟩⟩
  | colliding name kind symbol params =>
      exact (SimulationM.Atomic.requireNew _ name (h.define_atomic ..)).congr
        (StockRecipe.fits_iff rfl rfl)
  | emitting name kind symbol state voxels =>
      exact (SimulationM.Atomic.requireNew _ name (h.defineEmitter_atomic ..)).congr
        (StockRecipe.fits_iff rfl rfl)

/-! ### Failures -/

/-- An emitter that cannot be defined leaves nothing behind.  Only one that brings a buffer and is
to be sized again has used up an identity. -/
theorem Sound.of_defineEmitter_error (h : s.Sound) {name : String} {kind : EmitterKind}
    {params : EmitterParams} {symbol : Option String} {voxels : Option Nat} {e : ComponentError}
    {s' : Simulation} (he : defineEmitter name kind params symbol voxels s = .error e s') :
    s' = s ∨ (e = .alreadySized name ∧ voxels.isSome ∧ params.voxels.isSome ∧
      s'.registry.entries.entries = s.registry.entries.entries ∧
      s'.registry.cursor = s.registry.cursor + 1 ∧ s' = { s with registry := s'.registry }) := by
  rw [h.defineEmitter_eq] at he
  split at he
  · cases he
    exact .inl rfl
  · next hvoxels hbuffer =>
    cases he
    exact .inr ⟨rfl, rfl, by rw [hbuffer]; rfl, Registry.entries_forget_register _ h.nextId_fresh,
      rfl, rfl⟩
  · cases he
  · cases he

/-- **Definitions are atomic.**  A stock recipe succeeds exactly when it fits.  Then the simulation
has gained the component that the recipe describes, registered under the next identity, which is
returned; otherwise it is as before, its cursor included.  A direct definition that fails leaves the
simulation as it was, too, but for an emitter with a buffer that is to be sized again: that one uses
up an identity, and nothing else is changed by it. -/
theorem Reached.definitions_atomic (h : s.Reached) :
    (∀ (F : Family) (d : StockRecipe F),
      ((∃ object s', d.recipe.build s = .ok object s') ↔ d.Fits s) ∧
      (∀ object s', d.recipe.build s = .ok object s' →
        object = s.registry.nextId ∧
          (∀ given ∈ d.speeds,
            (s.species.speeds given).map some = s.species.names.map given.find?) ∧
          ∃ c, d.Describes s c ∧ s.Gains c s') ∧
      ∀ e s', d.recipe.build s = .error e s' → s' = s) ∧
    (∀ (F : Family) (name : String) (kind : F.Kind) (params : F.Params) (symbol : Option String)
      (e : ComponentError) (s' : Simulation),
      define F name kind params symbol s = .error e s' → s' = s) ∧
    (∀ (name : String) (kind : EmitterKind) (params : EmitterParams) (symbol : Option String)
      (voxels : Option Nat) (e : ComponentError) (s' : Simulation),
      defineEmitter name kind params symbol voxels s = .error e s' →
        s' = s ∨ (e = .alreadySized name ∧ voxels.isSome ∧ params.voxels.isSome ∧
          s'.registry.entries.entries = s.registry.entries.entries ∧
          s'.registry.cursor = s.registry.cursor + 1 ∧ s' = { s with registry := s'.registry })) ∧
    (∀ (name : String) (charge mass : Real32) (e : ComponentError) (s' : Simulation),
      defineSpecies name charge mass s = .error e s' → s' = s) ∧
    ∀ (damping : Real32) (e : ComponentError) (s' : Simulation),
      defineField damping s = .error e s' → s' = s := by
  have hs := h.sound
  refine ⟨fun F d => ⟨(hs.build_atomic d).ok_iff, fun object s' hb => ?_,
      fun e s' => (hs.build_atomic d).eq_of_error⟩,
    fun F name kind params symbol e s' => (hs.define_atomic F name kind params symbol).eq_of_error,
    fun _ _ _ _ _ _ _ => hs.of_defineEmitter_error, fun name charge mass e s' hf => ?_,
    fun damping e s' hf => ?_⟩
  · have hfits := (hs.build_atomic d).ok_iff.mp ⟨object, s', hb⟩
    obtain ⟨hobject, hgains⟩ := (hs.build_atomic d).done_of_ok hb
    exact ⟨hobject, fun given hg => (hfits.speeds given hg).map_some_speeds, hgains⟩
  · rcases s.defineSpecies_cases name charge mass with ⟨e', -, he⟩ | ⟨species, hok⟩
    · rw [he] at hf
      cases hf
      rfl
    · rw [hok] at hf
      cases hf
  · rcases s.defineField_cases damping with he | hok
    · rw [he] at hf
      cases hf
      rfl
    · rw [hok] at hf
      cases hf

/-- Where there are species and members, one more can be made in every family; but not one of the
same name, nor one whose behavior or speeds are missing. -/
theorem Reached.definitions_atomic_populated :
    (∃ object s', (StockRecipe.tallying "lid").recipe.build populated = .ok object s') ∧
    (∃ object s', (StockRecipe.colliding "scatter" .langevin "drag" [1]).recipe.build populated =
      .ok object s') ∧
    (∃ object s', (StockRecipe.emitting "anode" .user "inject" [] (some 2)).recipe.build populated =
      .ok object s') ∧
    (¬ ∃ object s', (StockRecipe.tallying "wall").recipe.build populated = .ok object s') ∧
    (¬ ∃ object s', (StockRecipe.colliding "scatter" .langevin "push" [1]).recipe.build populated =
      .ok object s') ∧
    ¬ ∃ object s', (StockRecipe.refluxing "lid" (.ofList [("ion", ⟨0x3F800000⟩)])
      .empty).recipe.build populated = .ok object s' := by
  have hatomic := (definitions_atomic reached_populated).1
  have hboundary := fun d => (hatomic .boundary d).1
  have hcollision := fun d => (hatomic .collision d).1
  have hemitter := fun d => (hatomic .emitter d).1
  refine ⟨(hboundary _).mpr ?_, (hcollision _).mpr ?_, (hemitter _).mpr ?_, fun hok => ?_,
    fun hok => ?_, fun hok => ?_⟩
  · exact ⟨by decide +kernel, by decide +kernel, by decide +kernel, nofun⟩
  · exact (StockRecipe.fits_iff rfl rfl).mpr ⟨by decide +kernel, by decide +kernel⟩
  · exact (StockRecipe.fits_iff rfl rfl).mpr ⟨by decide +kernel, by decide +kernel⟩
  · exact absurd ((hboundary _).mp hok).new (by decide +kernel)
  · exact absurd ((hcollision _).mp hok).bound (by decide +kernel)
  · have hcovered := ((hboundary _).mp hok).speeds _ List.mem_cons_self
    rw [SpeciesList.Covered] at hcovered
    exact absurd hcovered (by decide +kernel)

end Simulation

end ParticleSim
