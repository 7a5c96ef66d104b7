import ParticleSim.Proofs.Roster.Hits
import ParticleSim.Proofs.Simulation.Conserved
import ParticleSim.Proofs.Simulation.StockRecipes

/-!
# Simulation — Accounting for hits

A simulation whose boundary conditions all come from stock recipes (`Simulation.Stocked`) answers a
hit by its id and its species alone, and what is left after any number of hits is a matter of how
many there were of each sort (`Simulation.Stocked.hits_accounted`).

* `Simulation.Stocked.stock`: what the recipes make is known, whatever happens in between, and also
  when the cursor wraps.
* `Simulation.strikes_eq`: the state after hits one after the other, in closed form.
-/

namespace ParticleSim

/-! ### Definitions that succeed -/

/-- The behaviors of the stock boundary conditions have their names in the table. -/
structure Behaviors.KnowsStock (b : Behaviors) : Prop where
  reflux : b.boundary.find? "maxwellian_reflux" = some maxwellianReflux
  tally : b.boundary.find? "absorb_tally" = some absorbTally

namespace Simulation

variable {s s' : Simulation} {F : Family}

/-- A definition that succeeds has had a component join its list. -/
theorem of_define_ok {name : String} {kind : F.Kind} {params : F.Params} {symbol : Option String}
    {object : ObjectId} (h : define F name kind params symbol s = .ok object s') :
    ∃ behavior l, s.behaviors.bind F symbol = .ok behavior ∧
      (s.list F).append (.unlinked s.registry.nextId name kind params behavior) = .ok l ∧
      s' = { s with registry := s.registry.register F.tag }.setList l := by
  obtain ⟨c, s₁, hc, hadopt⟩ := bind_eq_ok.mp h
  rw [create_eq] at hc
  cases hb : s.behaviors.bind F symbol with
  | error symbol => rw [hb] at hc; cases hc
  | ok behavior =>
      rw [hb] at hc
      cases hc
      cases ha : (s.list F).append
          (.unlinked s.registry.nextId name kind params behavior) with
      | error e =>
          rw [adopt_of_error (e := e) (by rw [list_withRegistry]; exact ha)] at hadopt
          cases hadopt
      | ok l =>
          rw [adopt_of_ok (l := l) (by rw [list_withRegistry]; exact ha)] at hadopt
          cases hadopt
          exact ⟨behavior, l, rfl, ha, rfl⟩

end Simulation

/-- A stock recipe for a boundary condition that succeeds has defined what it describes, and has
found every speed that it needs. -/
theorem StockRecipe.define_of_build {d : StockRecipe .boundary} {s s' : Simulation}
    {object : ObjectId} (h : d.recipe.build s = .ok object s') :
    Simulation.define .boundary d.name d.kind (d.params s.species) d.symbol s = .ok object s' ∧
      ∀ given ∈ d.speeds, s.species.Covered given := by
  cases d with
  | reflecting name | absorbing name =>
      obtain ⟨_, -, h⟩ := Recipe.require_bind_eq_ok.mp h
      exact ⟨h, nofun⟩
  | refluxing name parallel perpendicular =>
      obtain ⟨_, -, h⟩ := Recipe.require_bind_eq_ok.mp h
      obtain ⟨_, hparallel, h⟩ := Recipe.require_bind_eq_ok.mp h
      obtain ⟨_, hperpendicular, h⟩ := Recipe.require_bind_eq_ok.mp h
      obtain ⟨_, -, h⟩ := Recipe.require_bind_eq_ok.mp h
      obtain ⟨hcp, rfl⟩ := SimulationM.thermalSpeeds_eq_ok.mp hparallel
      obtain ⟨hcq, rfl⟩ := SimulationM.thermalSpeeds_eq_ok.mp hperpendicular
      exact ⟨h, List.forall_mem_cons.mpr ⟨hcp, List.forall_mem_singleton.mpr hcq⟩⟩
  | tallying name =>
      obtain ⟨_, -, h⟩ := Recipe.require_bind_eq_ok.mp h
      obtain ⟨_, -, h⟩ := Recipe.require_bind_eq_ok.mp h
      rw [get_bind] at h
      exact ⟨h, nofun⟩

/-- A symbol that is in the table is bound to the function that it has there. -/
theorem Behaviors.eq_of_bind {F : Family} {b : Behaviors} {symbol : String} {f : F.Behavior}
    (hf : (b.table F).find? symbol = some f) {behavior : Option (BoundBehavior F)}
    (h : b.bind F symbol = .ok behavior) : behavior = some ⟨symbol, f⟩ := by
  simp only [bind, hf, Except.ok.injEq] at h
  exact h.symm

/-- A boundary condition that a stock recipe describes is one from stock. -/
theorem Component.Made.stock {c : Component .boundary} {b : Behaviors} {species : SpeciesList}
    {d : StockRecipe .boundary} (h : c.Made b d.name d.kind (d.params species) d.symbol)
    (hb : b.KnowsStock) (hspeeds : ∀ given ∈ d.speeds, species.Covered given) :
    c.Stock species.size := by
  cases d with
  | reflecting name => exact .plain (.inl h.kind) h.params
  | absorbing name => exact .plain (.inr h.kind) h.params
  | refluxing name parallel perpendicular =>
      have hlength := congrArg List.length (hspeeds _ List.mem_cons_self).map_some_speeds
      simp only [List.length_map, SpeciesList.names] at hlength
      exact .refluxing _ _ _ h.kind h.params (Behaviors.eq_of_bind hb.reflux h.behavior) hlength
  | tallying name =>
      exact .tallying _ _ h.kind h.params (Behaviors.eq_of_bind hb.tally h.behavior)
        List.length_replicate

namespace Simulation

variable {s s' : Simulation} {widths : List Nat}

/-! ### Hits -/

/-- A hit on a simulation; one that fails leaves it as it is. -/
def strike (s : Simulation) (x : Strike) : Except LookupError Disposition × Simulation :=
  match s.interact x.id x.hit with
  | .error e => (.error e, s)
  | .ok (d, s') => (.ok d, s')

/-- Hits one after the other, and what each has come to. -/
def strikes (s : Simulation) :
    List Strike → List (Except LookupError Disposition) × Simulation
  | [] => ([], s)
  | x :: calls =>
    let (outcome, s) := s.strike x
    let (outcomes, s) := s.strikes calls
    (outcome :: outcomes, s)

/-- A simulation that has settled hits: members have counted those that reached them, and absorbed
particles are gone. -/
def settled (s : Simulation) (calls : List Strike) : Simulation :=
  { s with
    boundaries := s.boundaries.tallied calls
    species := s.species.drain (s.boundaries.absorbed calls) }

theorem settled_nil (s : Simulation) : s.settled [] = s := by
  have hnone : s.boundaries.absorbed [] = fun _ => 0 := rfl
  rw [settled, Roster.tallied_nil, hnone, SpeciesList.drain_zero]

theorem settled_append (s : Simulation) (calls calls' : List Strike) :
    s.settled (calls ++ calls') = (s.settled calls).settled calls' := by
  simp only [settled, Roster.tallied_append, Roster.absorbed_append, Roster.absorbed_tallied,
    SpeciesList.drain_drain]

/-- Hits settle to the same in any order. -/
theorem settled_perm {calls calls' : List Strike} (h : calls.Perm calls') :
    s.settled calls = s.settled calls' := by
  rw [settled, settled, Roster.tallied_perm h, Roster.absorbed_perm h]

theorem interact_eq (h : s.boundaries.Stock widths) (x : Strike) :
    s.interact x.id x.hit =
      (s.boundaries.answer x.id x.hit.species).map fun d => (d, s.settled [x]) := by
  rw [interact, h.interact_eq]
  cases s.boundaries.answer x.id x.hit.species <;> rfl

theorem strike_eq (h : s.boundaries.Stock widths) (x : Strike) :
    s.strike x = (s.boundaries.answer x.id x.hit.species, s.settled [x]) := by
  rw [strike, interact_eq h]
  cases ha : s.boundaries.answer x.id x.hit.species with
  | error e =>
      obtain ⟨htallied, habsorbed⟩ := h.settled_of_error ha
      rw [settled, htallied, habsorbed, SpeciesList.drain_zero]
      rfl
  | ok d => rfl

/-- A hit at an id that finds nothing changes nothing. -/
theorem strike_of_findById?_eq_none {x : Strike} (h : s.boundaries.findById? x.id = none) :
    s.strike x = (.error (.id x.id), s) := by
  rw [strike, interact, Roster.interact_eq_error.mpr ⟨rfl, h⟩]

/-- **Hits are settled one after the other as they are all together**, and each comes to what it
would have come to alone. -/
theorem strikes_eq (h : s.boundaries.Stock widths) (calls : List Strike) :
    s.strikes calls =
      (calls.map fun x => s.boundaries.answer x.id x.hit.species, s.settled calls) := by
  induction calls generalizing s with
  | nil => rw [strikes, settled_nil, List.map_nil]
  | cons x calls ih =>
      have hx : (s.settled [x]).boundaries.Stock widths := h.tallied [x]
      have hanswer : (s.settled [x]).boundaries.answer = s.boundaries.answer :=
        s.boundaries.answer_tallied [x]
      simp only [strikes, strike_eq h, ih hx, hanswer, ← settled_append, List.map_cons,
        List.singleton_append]

/-! ### Simulations that are stocked -/

/-- The simulations whose boundary conditions come from stock recipes, with the number of species
that there were when each was made.  Between the recipes there may be hits, teardowns and whatever
else leaves the list of boundary conditions as it is. -/
inductive Stocked : List Nat → Simulation → Prop where
  | new {behaviors : Behaviors} (known : behaviors.KnowsStock) (supply : InstanceSupply) :
      Stocked [] (new behaviors supply).1
  | built {widths : List Nat} {s s' : Simulation} {object : ObjectId} (before : Stocked widths s)
      (d : StockRecipe .boundary) (result : d.recipe.build s = .ok object s') :
      Stocked (widths ++ [s.species.size]) s'
  | struck {widths : List Nat} {s : Simulation} (before : Stocked widths s) (x : Strike) :
      Stocked widths (s.strike x).2
  | cleared {widths : List Nat} {s : Simulation} (before : Stocked widths s) :
      Stocked [] (s.clearList .boundary)
  | step {widths : List Nat} {s s' : Simulation} (before : Stocked widths s) (step : s.Step s')
      (boundaries : s'.boundaries = s.boundaries) : Stocked widths s'

/-- **What the recipes make is known.** -/
theorem Stocked.stock (h : s.Stocked widths) :
    s.behaviors.KnowsStock ∧ s.boundaries.Stock widths := by
  induction h with
  | new known supply => exact ⟨known, Roster.intact_empty _ _, .nil⟩
  | @built widths s s' object before d result ih =>
      obtain ⟨hb, hs⟩ := ih
      obtain ⟨hdefine, hspeeds⟩ := StockRecipe.define_of_build result
      obtain ⟨behavior, l, hbind, happend, rfl⟩ := of_define_ok hdefine
      refine ⟨hb, hs.intact.append happend, ?_⟩
      obtain ⟨-, -, rfl⟩ := Roster.append_eq_ok.mp happend
      exact List.rel_append hs.members
        (.cons (Component.Made.stock ⟨rfl, rfl, rfl, hbind⟩ hb hspeeds) .nil)
  | struck before x ih =>
      rw [strike_eq ih.2]
      exact ⟨ih.1, ih.2.tallied [x]⟩
  | cleared before ih => exact ⟨ih.1, Roster.intact_clear _, .nil⟩
  | step before step boundaries ih => exact ⟨step.tables ▸ ih.1, boundaries ▸ ih.2⟩

/-! ### Accounting -/

theorem member_settled (calls : List Strike) {i : Nat} {c : Component .boundary}
    (hc : s.boundaries.members[i]? = some c) :
    (s.settled calls).boundaries.members[i]? = some (c.tallied calls) := by
  show (s.boundaries.members.map (Component.tallied calls))[i]? = _
  rw [List.getElem?_map, hc, Option.map_some]

/-- **Hits are accounted for** in every simulation whose boundary conditions come from stock, also
when species were defined before, between and after them.  What a hit comes to depends on its id and
the index of its species, and not on the hits before it.  Of each species as many particles are gone
as hits by it were absorbed, down to none.  A member that counts has counted, for each species that
there was when it was made, the hits by that species with its id; only if ids have wrapped to the
reserved ones, behind `2 ^ 64 - 2` members, does the id not count as its own.  A hit at an id that
nobody has fails and changes nothing, at any time.  Nothing else has changed; so hits come to the
same state in any order. -/
theorem Stocked.hits_accounted (h : s.Stocked widths) (calls : List Strike) :
    (s.strikes calls).1 = calls.map (fun x => s.boundaries.answer x.id x.hit.species) ∧
    (∀ i, (s.strikes calls).2.species.get? i = (s.species.get? i).map fun sp =>
      { sp with
        population := .ofNat (sp.population.toNat - s.boundaries.absorbed calls i) }) ∧
    (∀ (i : Nat) (c : Component .boundary) (counts : List UInt64),
      s.boundaries.members[i]? = some c → c.params = BoundaryParams.tally counts →
        widths[i]? = some counts.length ∧
        (i + 2 < UInt64.size → ∀ x : Strike, x.Reaches c ↔ c.id = some x.id) ∧
        ∃ counts', (s.strikes calls).2.boundaries.members[i]? =
            some { c with params := BoundaryParams.tally counts' } ∧
          counts'.length = counts.length ∧
          ∀ j n, counts[j]? = some n → ∃ n', counts'[j]? = some n' ∧
            (n.toNat + c.reached calls j < UInt64.size →
              n'.toNat = n.toNat + c.reached calls j)) ∧
    (∀ (i : Nat) (c : Component .boundary), s.boundaries.members[i]? = some c →
      (∀ counts, c.params ≠ BoundaryParams.tally counts) →
        (s.strikes calls).2.boundaries.members[i]? = some c) ∧
    (∀ x : Strike, s.boundaries.findById? x.id = none →
      (s.strikes calls).2.strike x = (.error (.id x.id), (s.strikes calls).2)) ∧
    (s.strikes calls).2 = { s with
      species := (s.strikes calls).2.species
      boundaries := { s.boundaries with
        members := (s.strikes calls).2.boundaries.members } } ∧
    (s.strikes calls).2.boundaries.size = s.boundaries.size ∧
    ∀ calls', calls.Perm calls' → (s.strikes calls').2 = (s.strikes calls).2 := by
  have hs := h.stock.2
  rw [strikes_eq hs calls]
  refine ⟨rfl, fun i => List.getElem?_mapIdx, fun i c counts hc hp => ?_, fun i c hc hp => ?_,
    fun x hx => ?_, rfl, List.length_map .., fun calls' hperm => ?_⟩
  · obtain ⟨width, hwidth, hstock⟩ := hs.member hc
    obtain ⟨hkind, hlength⟩ := hstock.of_tally hp
    have hreaches (hi : i + 2 < UInt64.size) (x : Strike) : x.Reaches c ↔ c.id = some x.id :=
      hs.intact.reaches_iff hc (by rw [hkind]; nofun) (by rw [hkind]; nofun) hi
    refine ⟨by rw [hwidth, hlength], hreaches,
      counts.mapIdx fun j n => n + .ofNat (c.reached calls j), ?_, List.length_mapIdx,
      fun j n hn => ⟨_, by rw [List.getElem?_mapIdx, hn, Option.map_some], fun hlt => ?_⟩⟩
    · rw [member_settled calls hc, Component.tallied, hp]
      rfl
    · rw [UInt64.toNat_add, UInt64.toNat_ofNat_of_lt' (by omega), Nat.mod_eq_of_lt hlt]
  · rw [member_settled calls hc, Component.tallied_of_ne_tally hp]
  · have hanswer : (s.boundaries.tallied calls).answer x.id 0 = .error (.id x.id) := by
      rw [Roster.answer_tallied]
      exact hs.answer_eq_error.mpr ⟨rfl, hx⟩
    exact strike_of_findById?_eq_none ((hs.tallied calls).answer_eq_error.mp hanswer).2
  · rw [strikes_eq hs calls', settled_perm hperm]

/-- A simulation with one species and a boundary condition that counts it. -/
def countingSimulation : Simulation :=
  (Recipe.tallying "counter").build.leaves
    ((defineSpecies "ion" ⟨0⟩ ⟨0⟩).leaves (new .builtin ⟨0⟩).1)

/-- Two hits are absorbed, one at the member and one at a reserved id, and one fails; backwards they
come to the same. -/
theorem Stocked.hits_accounted_counting :
    (countingSimulation.strikes [⟨⟨-3⟩, ⟨0, 0⟩⟩, ⟨⟨-9⟩, ⟨0, 0⟩⟩, ⟨⟨-2⟩, ⟨0, 1⟩⟩]).1 =
        [.ok .absorbed, .error (.id ⟨-9⟩), .ok .absorbed] ∧
      (countingSimulation.strikes [⟨⟨-2⟩, ⟨0, 1⟩⟩, ⟨⟨-9⟩, ⟨0, 0⟩⟩, ⟨⟨-3⟩, ⟨0, 0⟩⟩]).2 =
        (countingSimulation.strikes [⟨⟨-3⟩, ⟨0, 0⟩⟩, ⟨⟨-9⟩, ⟨0, 0⟩⟩, ⟨⟨-2⟩, ⟨0, 1⟩⟩]).2 := by
  have known : Behaviors.builtin.KnowsStock := ⟨rfl, rfl⟩
  have stocked : countingSimulation.Stocked [1] :=
    .built (.step (.new known ⟨0⟩) (.defineSpecies "ion" ⟨0⟩ ⟨0⟩) rfl) (.tallying "counter") rfl
  obtain ⟨houtcomes, -, -, -, -, -, -, horder⟩ := stocked.hits_accounted
    [⟨⟨-3⟩, ⟨0, 0⟩⟩, ⟨⟨-9⟩, ⟨0, 0⟩⟩, ⟨⟨-2⟩, ⟨0, 1⟩⟩]
  exact ⟨houtcomes.trans (by decide), horder _ (by decide)⟩

end Simulation

end ParticleSim
