import ParticleSim.Proofs.Simulation.StockRecipes
import ParticleSim.Proofs.View.Runs

/-!
# Views — Replacement of a whole list

A list is torn down and built again from stock recipes, up to the first that fails.  Those that
succeed before are a run of their own (`StockRecipe.Built`): each adds one component to what the one
before it left, so that a run adds all of them, in order and under consecutive identities
(`StockRecipe.Built.grown`).  A view that takes part is brought up to date after each of them and
once more at the end, when the recipe that fails has changed nothing.

* `Simulation.Reached.replacement_exact`: what the list, the registry, the view and the rest of the
  simulation are afterwards, whichever recipe fails.

The cursor must not wrap meanwhile; nothing is asked of the recipes or of the view.
-/

namespace ParticleSim

variable {F : Family} {s s' : Simulation} {d : StockRecipe F} {ds : List (StockRecipe F)}

/-! ### Recipes one after the other -/

namespace StockRecipe

/-- How many recipes succeed, one after the other, before the first that fails. -/
def successes : List (StockRecipe F) → Simulation → Nat
  | [], _ => 0
  | d :: ds, s =>
    match d.recipe.build s with
    | .ok _ s' => successes ds s' + 1
    | .error _ _ => 0

theorem successes_le_length (ds : List (StockRecipe F)) (s : Simulation) :
    successes ds s ≤ ds.length := by
  induction ds generalizing s with
  | nil => exact Nat.le_refl _
  | cons d ds ih =>
      rw [successes]
      split
      · exact Nat.succ_le_succ (ih _)
      · exact Nat.zero_le _

/-- Recipes succeed one after the other. -/
inductive Built : Simulation → List (StockRecipe F) → Simulation → Prop where
  | nil {s : Simulation} : Built s [] s
  | cons {s s₁ s' : Simulation} {d : StockRecipe F} {ds : List (StockRecipe F)} {object : ObjectId}
      (first : d.recipe.build s = .ok object s₁) (rest : Built s₁ ds s') : Built s (d :: ds) s'

/-- The recipes before the first that fails succeed, and then it does fail. -/
theorem exists_built (ds : List (StockRecipe F)) (s : Simulation) :
    ∃ s', Built s (ds.take (successes ds s)) s' ∧
      ∀ d, ds[successes ds s]? = some d → ∃ e s'', d.recipe.build s' = .error e s'' := by
  induction ds generalizing s with
  | nil => exact ⟨s, .nil, nofun⟩
  | cons d ds ih =>
      rw [successes]
      cases hb : d.recipe.build s with
      | ok object s₁ =>
          obtain ⟨s', hbuilt, hfails⟩ := ih s₁
          exact ⟨s', .cons hb hbuilt, hfails⟩
      | error e s'' =>
          refine ⟨s, .nil, fun d' hd => ⟨e, s'', ?_⟩⟩
          obtain rfl : d = d' := by simpa using hd
          exact hb

/-- Recipes that succeed are applied without a failure. -/
theorem Built.applyAll (h : Built s ds s') : Recipe.applyAll (ds.map recipe) s = .ok () s' := by
  induction h with
  | nil => rfl
  | @cons s s₁ s' d ds object first rest ih =>
      have hfirst : discard d.recipe.build s = .ok () s₁ := by
        simp only [discard, Functor.discard, Functor.mapConst, Function.comp, Function.const,
          EStateM.map, first]
      rw [List.map_cons, Recipe.applyAll, bind_of_ok hfirst]
      exact ih

end StockRecipe

/-! ### What a run of recipes adds -/

namespace Registry

/-- The identities that the next `n` objects will have. -/
def nextIds (r : Registry) (n : Nat) : List ObjectId :=
  (List.range n).map fun i => ⟨r.cursor + .ofNat i⟩

theorem nextIds_succ {r r' : Registry} (h : r'.cursor = r.cursor + 1) (n : Nat) :
    r.nextIds (n + 1) = r.nextId :: r'.nextIds n := by
  rw [nextIds, List.range_succ_eq_map, List.map_cons, List.map_map]
  congr 1
  · exact congrArg ObjectId.mk (UInt64.add_zero _)
  · refine List.map_congr_left fun i _ => congrArg ObjectId.mk ?_
    rw [h, Nat.succ_eq_add_one, UInt64.ofNat_add]
    grind

end Registry

namespace Simulation

/-- A simulation has, at the end of one list and of the registry, the components that recipes
describe, under the next identities. -/
structure Grown (s : Simulation) (ds : List (StockRecipe F)) (s' : Simulation) : Prop where
  members : ∃ cs : List (Component F), List.Forall₂ (fun d c => d.Describes s c) ds cs ∧
    cs.map Component.object = s.registry.nextIds ds.length ∧
    s'.list F = { s.list F with members := (s.list F).members ++ cs }
  entries : s'.registry.entries.entries =
    s.registry.entries.entries ++ (s.registry.nextIds ds.length).map (·, F.tag)
  cursor : s'.registry.cursor = s.registry.cursor + .ofNat ds.length
  rest : s' = ({ s with registry := s'.registry } : Simulation).setList (s'.list F)

theorem Grown.refl (s : Simulation) : s.Grown ([] : List (StockRecipe F)) s where
  members := ⟨[], .nil, rfl, by rw [List.append_nil]⟩
  entries := (List.append_nil _).symm
  cursor := (UInt64.add_zero _).symm
  rest := by cases F <;> rfl

/-- What changes only in its registry and one list describes as before. -/
theorem describes_iff {s₁ : Simulation} {c : Component F}
    (h : s₁ = ({ s with registry := s₁.registry } : Simulation).setList (s₁.list F)) :
    d.Describes s₁ c ↔ d.Describes s c := by
  have hbehaviors : s₁.behaviors = s.behaviors := by rw [h]; cases F <;> rfl
  have hspecies : s₁.species = s.species := by rw [h]; cases F <;> rfl
  rw [StockRecipe.Describes, StockRecipe.Describes, hbehaviors, hspecies]

/-- One component first, and then the others. -/
theorem Gains.grown {s₁ : Simulation} {c : Component F} (h : s.Gains c s₁) (hc : d.Describes s c)
    (h' : s₁.Grown ds s') : s.Grown (d :: ds) s' := by
  obtain ⟨cs, hcs, hobjects, hlist⟩ := h'.members
  have hids := Registry.nextIds_succ h.cursor ds.length
  refine ⟨⟨c :: cs, .cons hc ?_, ?_, ?_⟩, ?_, ?_, ?_⟩
  · exact hcs.imp fun _ _ => (describes_iff h.rest).mp
  · rw [List.map_cons, h.object, hobjects, List.length_cons, hids]
  · rw [hlist, h.list]
    simp only [List.append_assoc, List.singleton_append]
  · rw [h'.entries, h.entries, List.length_cons, hids, List.append_assoc]
    rfl
  · rw [h'.cursor, h.cursor, List.length_cons, UInt64.ofNat_add]
    grind
  · rw [h'.rest, h.rest]
    cases F <;> rfl

end Simulation

namespace StockRecipe

/-- A recipe that succeeds with room for `n` identities more leaves a sound simulation and that
room behind. -/
theorem gains_of_build {s₁ : Simulation} {object : ObjectId} {n : Nat}
    (hb : d.recipe.build s = .ok object s₁) (hs : s.Sound)
    (few : s.registry.cursor.toNat + (n + 1) < UInt64.size) :
    (∃ c, d.Describes s c ∧ s.Gains c s₁) ∧ s₁.Sound ∧
      s₁.registry.cursor.toNat + n < UInt64.size := by
  obtain ⟨-, c, hmade, hgains⟩ := (hs.build_atomic d).done_of_ok hb
  have hsucc : s₁.registry.cursor.toNat = s.registry.cursor.toNat + 1 := by
    rw [hgains.cursor, UInt64.toNat_add]
    exact Nat.mod_eq_of_lt (Nat.lt_of_le_of_lt (by simp) few)
  have hsound := (Recipe.stock_iff.mpr ⟨d, rfl⟩).tame.sound s hs
  rw [SimulationM.leaves, hb] at hsound
  have hle : s.registry.cursor ≤ s₁.registry.cursor := UInt64.le_iff_toNat_le.mpr (by omega)
  exact ⟨⟨c, hmade, hgains⟩, hsound hle, by omega⟩

/-- **A run of recipes adds what they describe**, and leaves a sound simulation sound. -/
theorem Built.grown (h : Built s ds s') (hs : s.Sound)
    (few : s.registry.cursor.toNat + ds.length < UInt64.size) : s.Grown ds s' ∧ s'.Sound := by
  induction h with
  | nil => exact ⟨.refl _, hs⟩
  | cons first rest ih =>
      obtain ⟨⟨c, hc, hgains⟩, hs₁, few'⟩ := gains_of_build first hs few
      obtain ⟨hgrown, hs'⟩ := ih hs₁ few'
      exact ⟨hgains.grown hc hgrown, hs'⟩

end StockRecipe

/-! ### The view -/

namespace RosterView

/-- A view shows the list as it is or will look again. -/
def Ready (v : RosterView F) (l : Roster F) : Prop := v.stamp = none ∨ v = .ofList l

theorem Ready.refresh_eq {v : RosterView F} {l : Roster F} (h : v.Ready l) :
    v.refresh l = .ofList l := by
  rcases h with hstamp | rfl
  · exact refresh_of_stale (stale_of_stamp_none hstamp)
  · rw [refresh, ite_self]

/-- A view that was up to date is brought up to date again after a component has joined. -/
theorem Ready.refresh_append {v : RosterView F} {l l' : Roster F} {c : Component F}
    (h : v.Ready l) (hl : l.Intact) (hl' : l'.Intact)
    (hc : l' = { l with members := l.members ++ [c] }) : v.refresh l' = .ofList l' := by
  rcases h with hstamp | rfl
  · exact refresh_of_stale (stale_of_stamp_none hstamp)
  · refine refresh_of_stale (stale_ofList_iff.mpr fun hsame => ?_)
    have hcount := hsame.2.2
    rw [hl.count_eq_size, hl'.count_eq_size, hc, Roster.size, List.length_append] at hcount
    simp [Roster.size] at hcount

/-- **Recipes that succeed keep a view up to date**, whatever comes behind them. -/
theorem extend_built {v : RosterView F} (h : StockRecipe.Built s ds s') (hs : s.Sound)
    (few : s.registry.cursor.toNat + ds.length < UInt64.size) (hv : v.Ready (s.list F))
    (rest : List (Recipe F)) :
    ∃ v' : RosterView F, v'.Ready (s'.list F) ∧
      extend (ds.map StockRecipe.recipe ++ rest) (v, s) = extend rest (v', s') := by
  induction h generalizing v with
  | nil => exact ⟨v, hv, rfl⟩
  | @cons s s₁ s' d ds object first built ih =>
      obtain ⟨⟨c, -, hgains⟩, hs₁, few'⟩ := StockRecipe.gains_of_build first hs few
      have hview : v.refresh (s₁.list F) = .ofList (s₁.list F) :=
        hv.refresh_append ⟨hs.chained F, hs.nodup_members F⟩
          ⟨hs₁.chained F, hs₁.nodup_members F⟩ hgains.list
      obtain ⟨v', hv', heq⟩ := ih hs₁ few' (.inr hview)
      refine ⟨v', hv', ?_⟩
      rw [List.map_cons, List.cons_append, extend_cons, append_eq, first]
      exact heq

end RosterView

/-! ### Replacement -/

namespace Simulation

/-- What has become of a simulation when one of its lists was made anew from recipes. -/
structure Replaced (s : Simulation) (ds : List (StockRecipe F)) (s' : Simulation) : Prop where
  /-- The members are those that the recipes describe, in the same order. -/
  members : List.Forall₂ (fun d c => d.Describes s c) ds (s'.list F).members
  objects : (s'.list F).members.map Component.object = s.registry.nextIds ds.length
  /-- The ids begin with that of the first place. -/
  ids : ∀ (i : Nat) (c : Component F), (s'.list F).members[i]? = some c →
    c.id = some ⟨.ofInt (F.idAt c.kind i)⟩
  intact : (s'.list F).Intact
  version : (s'.list F).version = (s.list F).version.next
  list : s'.list F =
    { s.list F with members := (s'.list F).members, version := (s'.list F).version }
  /-- The registry has lost the old members and has the new ones behind everything else. -/
  entries : s'.registry.entries.entries =
    s.registry.entries.entries.filter (fun e => e.1 ∉ (s.list F).members.map Component.object) ++
      (s.registry.nextIds ds.length).map (·, F.tag)
  cursor : s'.registry.cursor = s.registry.cursor + .ofNat ds.length
  /-- Nothing else has changed. -/
  rest : s' = ({ s with registry := s'.registry } : Simulation).setList (s'.list F)

/-- What is added to a list that was torn down replaces its members. -/
theorem Grown.replaced (h : (s.clearList F).Grown ds s') (hs' : s'.Sound) : s.Replaced ds s' := by
  obtain ⟨cs, hcs, hobjects, hlist⟩ := h.members
  obtain ⟨hentries, hcursor⟩ := (s.list F).entries_forgetMembers s.registry
  have hintact : (s'.list F).Intact := ⟨hs'.chained F, hs'.nodup_members F⟩
  have hcleared : (s.clearList F).list F = (s.list F).clear := by
    rw [clearList, list_withRegistry, list_setList]
  have hnext (n : Nat) : (s.clearList F).registry.nextIds n = s.registry.nextIds n := by
    rw [Registry.nextIds, Registry.nextIds, ← hcursor]
    rfl
  have hdescribes (d : StockRecipe F) (c : Component F) :
      d.Describes (s.clearList F) c ↔ d.Describes s c := describes_iff (by cases F <;> rfl)
  rw [hcleared] at hlist
  have hmembers : (s'.list F).members = cs := by rw [hlist]; rfl
  refine ⟨?_, ?_, fun i c hc => hintact.id_eq hc, hintact, ?_, ?_, ?_, ?_, ?_⟩
  · rw [hmembers]
    exact hcs.imp fun d c => (hdescribes d c).mp
  · rw [hmembers, hobjects, hnext]
  · rw [hlist]
    rfl
  · rw [hlist]
    rfl
  · rw [h.entries, hnext, ← hentries]
    rfl
  · rw [h.cursor, ← hcursor]
    rfl
  · rw [h.rest]
    cases F <;> rfl

/-- **A replacement stops at the first recipe that fails and leaves nothing half done.**  Let `k`
recipes succeed, one after the other, once the list is torn down.  Afterwards the list has the `k`
members that they describe, under the next identities and with ids from the first place on; its
version has gone on by one; the registry has these in the place of the old members, and nothing else
has changed.  The result is that of the first recipe that fails, if one does, and the view shows the
list as it is. -/
theorem Reached.replacement_exact (h : s.Reached) (v : RosterView F) (ds : List (StockRecipe F))
    (few : s.registry.cursor.toNat + StockRecipe.successes ds (s.clearList F) < UInt64.size) :
    let k := StockRecipe.successes ds (s.clearList F)
    ∃ s', s.Replaced (ds.take k) s' ∧ (s'.list F).size = k ∧
      Recipe.applyAll ((ds.take k).map StockRecipe.recipe) (s.clearList F) = .ok () s' ∧
      (RosterView.ofList (s'.list F)).Shows (s'.list F) ∧
      ((k = ds.length ∧ RosterView.replaceAll (ds.map StockRecipe.recipe) (v, s) =
          .ok () (.ofList (s'.list F), s')) ∨
        ∃ d e, ds[k]? = some d ∧ d.recipe.build s' = .error e s' ∧
          RosterView.replaceAll (ds.map StockRecipe.recipe) (v, s) =
            .error e (.ofList (s'.list F), s')) := by
  intro k
  have hs := h.sound.clearList F
  have hcursor : (s.clearList F).registry.cursor = s.registry.cursor :=
    ((s.list F).entries_forgetMembers s.registry).2
  obtain ⟨s', hbuilt, hfails⟩ := StockRecipe.exists_built ds (s.clearList F)
  have few' : (s.clearList F).registry.cursor.toNat + (ds.take k).length < UInt64.size := by
    rw [hcursor, List.length_take]
    exact Nat.lt_of_le_of_lt (Nat.add_le_add_left (Nat.min_le_left _ _) _) few
  obtain ⟨hgrown, hs'⟩ := hbuilt.grown hs few'
  have hreplaced := hgrown.replaced hs'
  obtain ⟨v', hready, hextend⟩ := RosterView.extend_built (v := { v with stamp := none }) hbuilt hs
    few' (.inl rfl) ((ds.drop k).map StockRecipe.recipe)
  rw [← List.map_append, List.take_append_drop] at hextend
  have hk : k ≤ ds.length := StockRecipe.successes_le_length ds _
  refine ⟨s', hreplaced, ?_, hbuilt.applyAll, RosterView.ofList_shows _, ?_⟩
  · rw [Roster.size, ← hreplaced.members.length_eq, List.length_take, Nat.min_eq_left hk]
  · rw [RosterView.replaceAll, hextend]
    rcases Nat.lt_or_eq_of_le hk with hlt | heq
    · -- the recipe at `k` is there and fails; it leaves what it found
      obtain ⟨e, s'', hfail⟩ := hfails ds[k] (List.getElem?_eq_getElem hlt)
      obtain rfl := (hs'.build_atomic ds[k]).eq_of_error hfail
      refine .inr ⟨ds[k], e, List.getElem?_eq_getElem hlt, hfail, ?_⟩
      rw [List.drop_eq_getElem_cons hlt, List.map_cons, RosterView.extend_cons,
        RosterView.append_eq, hfail]
      simp only [hready.refresh_eq]
    · refine .inl ⟨heq, ?_⟩
      have hnil : RosterView.extend (F := F) [] (v', s') = .ok () (v', s') := rfl
      rw [heq, List.drop_length, List.map_nil, hnil]
      simp only [hready.refresh_eq]

/-- Of three boundary conditions, two of one name, the first and no other is there in the end. -/
theorem Reached.replacement_exact_twice :
    ∃ s' : Simulation, (s'.list .boundary).size = 1 ∧ ∃ e,
      RosterView.replaceAll
          ([.absorbing "x", .absorbing "x", .reflecting "y"].map StockRecipe.recipe)
          (.empty, (Simulation.new .builtin ⟨0⟩).1) =
        .error e (.ofList (s'.list .boundary), s') := by
  have hk : StockRecipe.successes [.absorbing "x", .absorbing "x", .reflecting "y"]
      ((Simulation.new .builtin ⟨0⟩).1.clearList .boundary) = 1 := by decide +kernel
  obtain ⟨s', -, hsize, -, -, hall | ⟨d, e, -, -, hfails⟩⟩ :=
    replacement_exact (.new .builtin ⟨0⟩) .empty
      [.absorbing "x", .absorbing "x", .reflecting "y"] (by rw [hk]; decide)
  · exact absurd (hk.symm.trans hall.1) (by decide)
  · exact ⟨s', hsize.trans hk, e, hfails⟩

end Simulation

end ParticleSim
