import ParticleSim.Proofs.Host.ControlState
import ParticleSim.Proofs.Simulation.Names
import ParticleSim.Proofs.View.Runs

/-!
# Views — Two lookups

A list looks a name up from its head, behind the built-in variants; a view looks it up from the
member that joined first.  They find the same member when no name is there twice, which the list does
not see to.  A simulation that is built by stock recipes alone, directly or through views, has no
name twice (`Simulation.Guarded.named`).

* `Process.Runs.lookups_agree`: there the two lookups agree, through any view at any time.
-/

namespace ParticleSim

variable {F : Family}

/-! ### One list -/

section Named

variable {l : Roster F} {name : String}

/-- Without a name twice it does not matter from which end a name is looked up. -/
theorem Roster.find?_native_name (hn : l.names.Nodup) (name : String) :
    l.native.find? (·.name = name) = l.members.find? (·.name = name) := by
  have hnative : (l.native.map Component.name).Nodup := by
    rw [native, List.map_reverse]
    exact List.nodup_reverse.mpr hn
  refine Option.ext fun c => ?_
  rw [find?_key_eq_some hnative, find?_key_eq_some (f := Component.name) hn, native,
    List.mem_reverse]

/-- What is found by a name is a member of that list. -/
theorem Roster.mem_of_findByName? {c : Component F} (h : l.findByName? name = some (.member c)) :
    c ∈ l.members := by
  rw [findByName?] at h
  split at h
  · cases h
  · obtain ⟨c', hf, ⟨⟩⟩ := Option.map_eq_some_iff.mp h
    exact List.mem_reverse.mp (List.mem_of_find?_eq_some hf)

/-- A handle to a member of a list as it is resolves to that member. -/
theorem Handle.resolve_ofList (hl : l.Intact) {c : Component F} (hc : c ∈ l.members) :
    (ofList l c.object).resolve l = .ok c := by
  have hget : l.get? c.object = some c := hl.get?_eq_some.mpr ⟨hc, rfl⟩
  rw [resolve, if_pos ⟨rfl, rfl⟩]
  simp only [ofList, hget]

namespace RosterView

/-- **A view finds the member that the list finds**, unless a built-in variant has the name. -/
theorem get_ofList_eq_ok (hn : l.names.Nodup) (hfree : F.builtinByName? name = none)
    {handle : Handle F} :
    (ofList l).get name = .ok handle ↔
      ∃ c, l.findByName? name = some (.member c) ∧ handle = .ofList l c.object := by
  rw [(ofList_shows l).get, Roster.findByName?, hfree, Roster.find?_native_name hn]
  cases l.members.find? (·.name = name) with
  | none => simp
  | some c => simp [eq_comm]

/-- A view has a name exactly when no component of that name may be made. -/
theorem contains_ofList_iff :
    (ofList l).contains name = true ↔ ∃ e, l.requireNew name = .error e := by
  rw [(ofList_shows l).contains, Roster.requireNew]
  split
  · next h => simp [h]
  · next h => simp [h]

end RosterView

end Named

/-! ### Guarded simulations -/

namespace Simulation

/-- The simulations whose components all come from stock recipes.  Between the recipes there may be
whatever else adds no component, and a checkpoint from which the simulation is restored, perhaps
under other tables. -/
inductive Guarded : Simulation → Prop where
  | new (behaviors : Behaviors) (supply : InstanceSupply) : Guarded (new behaviors supply).1
  | recipe {s : Simulation} {F : Family} (before : Guarded s) (r : Recipe F) (stock : r.Stock) :
      Guarded (r.build.leaves s)
  | append {s : Simulation} {F : Family} (before : Guarded s) (v : RosterView F) (r : Recipe F)
      (stock : r.Stock) : Guarded ((RosterView.append r).leaves (v, s)).2
  | extend {s : Simulation} {F : Family} (before : Guarded s) (v : RosterView F)
      (rs : List (Recipe F)) (stock : ∀ r ∈ rs, r.Stock) :
      Guarded ((RosterView.extend rs).leaves (v, s)).2
  | replaceAll {s : Simulation} {F : Family} (before : Guarded s) (v : RosterView F)
      (rs : List (Recipe F)) (stock : ∀ r ∈ rs, r.Stock) :
      Guarded ((RosterView.replaceAll rs).leaves (v, s)).2
  | defineSpecies {s : Simulation} (before : Guarded s) (name : String) (charge mass : Real32) :
      Guarded ((defineSpecies name charge mass).leaves s)
  | defineField {s : Simulation} (before : Guarded s) (damping : Real32) :
      Guarded ((defineField damping).leaves s)
  | interact {s s' : Simulation} (before : Guarded s) (id : ComponentId) (hit : Hit)
      (d : Disposition) (result : s.interact id hit = .ok (d, s')) : Guarded s'
  | advance {s : Simulation} (before : Guarded s) : Guarded s.advance
  | clearList {s : Simulation} (before : Guarded s) (F : Family) : Guarded (s.clearList F)
  | reset {s : Simulation} (before : Guarded s) : Guarded s.reset
  | updateSpecies {s : Simulation} (before : Guarded s) (species : SpeciesList) :
      Guarded { s with species }
  | updateParams {s : Simulation} (before : Guarded s) (F : Family) (object : ObjectId)
      (f : F.Params → F.Params) : Guarded (s.setList ((s.list F).updateParams object f))
  | checkpoint {s : Simulation} {σ : Type} (before : Guarded s) (c : Host.CheckpointCall σ) :
      Guarded (c.perform s).simulation
  /-- What is read is what was written, and anything behind it. -/
  | restored {s s' : Simulation} {σ σ' τ : Type} (before : Guarded s) (c : Host.CheckpointCall σ)
      (n : UInt64) (written : (c.perform s).result = .ok n) (q : Host) (t : Bytes)
      (behaviors : Behaviors) (unpickle : Bytes → ControlM σ' τ) (layer : σ') (a : τ)
      (result : (q.restore (.ok ((c.perform s).output ++ t)) behaviors unpickle layer).result =
        .ok (s', a)) : Guarded s'

namespace Named

variable {s : Simulation}

theorem append (h : s.Named) (v : RosterView F) {r : Recipe F} (hr : r.Stock) :
    ((RosterView.append r).leaves (v, s)).2.Named := by
  have hbuild := h.recipe hr
  rw [SimulationM.leaves] at hbuild
  rw [RosterView.ViewM.leaves, RosterView.append_eq]
  cases hb : r.build s with
  | ok object s' =>
      rw [hb] at hbuild
      exact hbuild
  | error e s' =>
      rw [hb] at hbuild
      exact hbuild

theorem extend (h : s.Named) (v : RosterView F) {rs : List (Recipe F)} (hrs : ∀ r ∈ rs, r.Stock) :
    ((RosterView.extend rs).leaves (v, s)).2.Named := by
  induction rs generalizing v s with
  | nil => exact h
  | cons r rs ih =>
      obtain ⟨hr, hrs⟩ := List.forall_mem_cons.mp hrs
      have happend := h.append v hr
      rw [RosterView.ViewM.leaves] at happend
      rw [RosterView.ViewM.leaves, RosterView.extend_cons]
      cases ha : RosterView.append r (v, s) with
      | ok handle x =>
          rw [ha] at happend
          exact ih happend x.1 hrs
      | error e x =>
          rw [ha] at happend
          exact happend

theorem replaceAll (h : s.Named) (v : RosterView F) {rs : List (Recipe F)}
    (hrs : ∀ r ∈ rs, r.Stock) : ((RosterView.replaceAll rs).leaves (v, s)).2.Named := by
  rw [RosterView.leaves_replaceAll]
  exact (h.clearList F).extend _ hrs

end Named

/-- **A guarded simulation has no name twice.** -/
theorem Guarded.named {s : Simulation} (h : s.Guarded) : s.Named := by
  induction h with
  | new behaviors supply => exact named_new behaviors supply
  | recipe before r stock ih => exact ih.recipe stock
  | append before v r stock ih => exact ih.append v stock
  | extend before v rs stock ih => exact ih.extend v stock
  | replaceAll before v rs stock ih => exact ih.replaceAll v stock
  | defineSpecies before name charge mass ih =>
      exact ih.of_lists (SimulationM.keeps_defineSpecies name charge mass _)
  | defineField before damping ih => exact ih.of_lists (SimulationM.keeps_defineField damping _)
  | interact before id hit d result ih => exact ih.retuned (interact_retuned result).lists
  | advance before ih => exact ih.retuned (advance_retuned _).lists
  | clearList before F ih => exact ih.clearList F
  | reset before ih => exact ih.reset
  | updateSpecies before species ih => exact ih.of_lists fun F => by cases F <;> rfl
  | updateParams before F object f ih =>
      exact ih.retuned (setList_retuned (Roster.updateParams_retuned _ object f)).lists
  | checkpoint before c ih =>
      rw [(c.perform_noted _).2.installed]
      exact ih.retuned (withControl_retuned _ _).lists
  | restored before c n written q t behaviors unpickle layer a result ih =>
      obtain ⟨control, origin, hw⟩ := c.write_of_perform written
      exact Host.named_of_restore hw (ih.retuned (withControl_retuned _ control).lists) result

end Simulation

/-! ### Every view at any time -/

namespace Process

variable {w : Process} {t : History} {supply : InstanceSupply} {s : Simulation}

/-- **The two lookups agree** on a guarded simulation, whatever else the process does.  No list has a
name twice.  As long as no list was torn down `2 ^ 64` times, whatever the state of a view: when it
is read it has exactly the names that may not be taken again; and a name that no built-in variant has
is found by the view exactly when it is found in the list, where the handle resolves to the member
that the list finds. -/
theorem Runs.lookups_agree (h : Runs (start supply) t w) (hs : s ∈ w.simulations)
    (guarded : s.Guarded) (F : Family) (n : Nat) :
    (s.list F).names.Nodup ∧
    (t.Few → ∀ name,
      (((w.views F n).refresh (s.list F)).contains name = true ↔
        ∃ e, (s.list F).requireNew name = .error e) ∧
      (F.builtinByName? name = none →
        ((∃ handle, ((w.views F n).refresh (s.list F)).get name = .ok handle) ↔
          ∃ c, (s.list F).findByName? name = some (.member c)) ∧
        ∀ handle, ((w.views F n).refresh (s.list F)).get name = .ok handle →
          ∃ c, (s.list F).findByName? name = some (.member c) ∧
            handle.resolve (s.list F) = .ok c)) := by
  have hnames := guarded.named F
  refine ⟨hnames, fun few name => ?_⟩
  have hkept := h.kept few
  rw [hkept.refresh_eq few hs]
  refine ⟨RosterView.contains_ofList_iff, fun hfree => ?_⟩
  refine ⟨⟨?_, ?_⟩, fun handle hget => ?_⟩
  · rintro ⟨handle, hget⟩
    obtain ⟨c, hc, -⟩ := (RosterView.get_ofList_eq_ok hnames hfree).mp hget
    exact ⟨c, hc⟩
  · rintro ⟨c, hc⟩
    exact ⟨_, (RosterView.get_ofList_eq_ok hnames hfree).mpr ⟨c, hc, rfl⟩⟩
  · obtain ⟨c, hc, rfl⟩ := (RosterView.get_ofList_eq_ok hnames hfree).mp hget
    exact ⟨c, hc, Handle.resolve_ofList (hkept.intact s hs F) (Roster.mem_of_findByName? hc)⟩

/-- The view that has looked at the list before the wall was built finds the wall. -/
theorem Runs.lookups_agree_sample :
    ∃ handle, (((sampleProcess sampleDefined).views .boundary 0).refresh
        sampleDefined.boundaries).get "wall" = .ok handle ∧
      ∃ c, sampleDefined.boundaries.findByName? "wall" = some (.member c) ∧
        handle.resolve sampleDefined.boundaries = .ok c := by
  have hbuild : (Recipe.absorbing "wall").build sampleNew =
      .ok sampleNew.registry.nextId sampleDefined :=
    Recipe.require_bind_eq_ok.mpr ⟨(), rfl, define_sample⟩
  have hleaves : (Recipe.absorbing "wall").build.leaves sampleNew = sampleDefined := by
    rw [SimulationM.leaves, hbuild]
  have guarded : sampleDefined.Guarded :=
    hleaves ▸ .recipe (.new .builtin ⟨0⟩) (.absorbing "wall") (.absorbing "wall")
  obtain ⟨-, hagree⟩ :=
    runs_sample.lookups_agree (s := sampleDefined) List.mem_cons_self guarded .boundary 0
  obtain ⟨-, hfree⟩ := hagree (History.few_of_length_lt (by decide)) "wall"
  obtain ⟨hfound, hresolve⟩ := hfree rfl
  obtain ⟨handle, hget⟩ := hfound.mpr ⟨_, rfl⟩
  exact ⟨handle, hget, hresolve handle hget⟩

end Process

end ParticleSim
