import ParticleSim.Proofs.Restore.Provenance
import ParticleSim.Proofs.Simulation.Courses

/-!
# Simulation — Names

A list takes a component in whatever its name is.  It is the stock recipes that look for the name
first (`Recipe.Stock.guards`), so a simulation that is built by these alone has no name twice in any
of its lists (`Simulation.Named`).  Nothing else adds a name: behaviors do not change any, a
teardown only takes names away, and a restore brings back what was written
(`Host.named_of_restore`).

Nothing is assumed of the simulation otherwise; in particular the cursor may have wrapped.
-/

namespace ParticleSim

variable {F : Family} {s s' : Simulation}

/-! ### Operations that add a name -/

namespace SimulationM

variable {α : Type} {name : String}

/-- An operation that puts a name behind those of a list when it succeeds. -/
structure Enlists (F : Family) (name : String) (m : SimulationM ObjectId) : Prop where
  names : ∀ {s object s'}, m s = .ok object s' → (s'.list F).names = (s.list F).names ++ [name]

/-- An operation that does so, but only if the name is new in the list. -/
structure Guards (F : Family) (name : String) (m : SimulationM ObjectId) : Prop
    extends Enlists F name m where
  new : ∀ {s object s'}, m s = .ok object s' → name ∉ (s.list F).names

theorem enlists_adopt (c : Component F) : Enlists F c.name (Simulation.adopt c) := by
  refine ⟨fun {s object s'} h => ?_⟩
  cases ha : (s.list F).append c with
  | error e =>
      rw [Simulation.adopt_of_error ha] at h
      cases h
  | ok l =>
      rw [Simulation.adopt_of_ok ha] at h
      cases h
      obtain ⟨-, -, rfl⟩ := Roster.append_eq_ok.mp ha
      rw [Simulation.list_setList, Roster.names, Roster.names, List.map_append]
      rfl

/-- A component is created under its name. -/
theorem enlists_create_bind {kind : F.Kind} {params : F.Params} {symbol : Option String}
    {next : Component F → SimulationM ObjectId}
    (hn : ∀ c : Component F, c.name = name → Enlists F name (next c)) :
    Enlists F name (Simulation.create F name kind params symbol >>= next) := by
  refine ⟨fun {s object s'} h => ?_⟩
  obtain ⟨c, s₁, hc, h⟩ := bind_eq_ok.mp h
  rw [Simulation.create_eq] at hc
  cases hb : s.behaviors.bind F symbol with
  | error symbol =>
      rw [hb] at hc
      cases hc
  | ok behavior =>
      rw [hb] at hc
      cases hc
      have hnames := (hn _ rfl).names h
      rwa [Simulation.list_withRegistry] at hnames

theorem enlists_define (kind : F.Kind) (params : F.Params) (symbol : Option String) :
    Enlists F name (Simulation.define F name kind params symbol) :=
  enlists_create_bind fun c hc => hc ▸ enlists_adopt c

theorem enlists_defineEmitter (kind : EmitterKind) (params : EmitterParams)
    (symbol : Option String) (voxels : Option Nat) :
    Enlists .emitter name (Simulation.defineEmitter name kind params symbol voxels) := by
  refine enlists_create_bind fun c hc => ?_
  cases voxels with
  | none => exact hc ▸ enlists_adopt c
  | some n =>
      dsimp only
      cases hsize : c.size n with
      | error e => exact ⟨fun h => nomatch h⟩
      | ok c' =>
          have hname : c'.name = name := by
            rw [Component.size] at hsize
            split at hsize
            · cases hsize
            · cases hsize
              exact hc
          rw [← hname]
          exact enlists_adopt c'

/-- A look for the name guards what comes behind it. -/
theorem guards_requireNew {next : Unit → SimulationM ObjectId}
    (hn : ∀ a, Enlists F name (next a)) :
    Guards F name (Recipe.requireNew F name >>= next) := by
  refine ⟨⟨fun {s object s'} h => ?_⟩, fun {s object s'} h => ?_⟩ <;>
    obtain ⟨a, hnew, h⟩ := Recipe.require_bind_eq_ok.mp h
  · exact (hn a).names h
  · rw [Roster.requireNew] at hnew
    split at hnew
    · cases hnew
    · next hany => simpa [Roster.names] using hany

/-- Any other check may come first. -/
theorem Guards.require {check : Simulation → Except ComponentError α}
    {next : α → SimulationM ObjectId} (hn : ∀ a, Guards F name (next a)) :
    Guards F name (Recipe.require check >>= next) := by
  refine ⟨⟨fun {s object s'} h => ?_⟩, fun {s object s'} h => ?_⟩ <;>
    obtain ⟨a, -, h⟩ := Recipe.require_bind_eq_ok.mp h
  · exact (hn a).names h
  · exact (hn a).new h

/-- So may a look at the simulation, behind the check. -/
theorem Enlists.get {next : Simulation → SimulationM ObjectId}
    (hn : ∀ s, Enlists F name (next s)) : Enlists F name (MonadState.get >>= next) := by
  refine ⟨fun {s object s'} h => ?_⟩
  rw [get_bind] at h
  exact (hn s).names h

end SimulationM

/-- **Every stock recipe guards its name.** -/
theorem Recipe.Stock.guards {r : Recipe F} (h : r.Stock) :
    SimulationM.Guards F r.name r.build := by
  open SimulationM in
  cases h with
  | reflecting name => exact guards_requireNew fun _ => enlists_define ..
  | absorbing name => exact guards_requireNew fun _ => enlists_define ..
  | refluxing name parallel perpendicular =>
      exact .require fun _ => .require fun _ => .require fun _ => guards_requireNew fun _ =>
        enlists_define ..
  | tallying name =>
      exact .require fun _ => guards_requireNew fun _ => .get fun _ => enlists_define ..
  | colliding name kind symbol params => exact guards_requireNew fun _ => enlists_define ..
  | emitting name kind symbol state voxels =>
      exact guards_requireNew fun _ => enlists_defineEmitter ..

/-! ### Lists without a name twice -/

namespace Simulation

/-- No list has a name twice. -/
def Named (s : Simulation) : Prop := ∀ F, (s.list F).names.Nodup

theorem named_new (behaviors : Behaviors) (supply : InstanceSupply) :
    (new behaviors supply).1.Named := fun F => by cases F <;> exact List.nodup_nil

namespace Named

theorem of_lists (h : s.Named) (lists : ∀ F, s'.list F = s.list F) : s'.Named :=
  fun F => lists F ▸ h F

theorem retuned (h : s.Named) (lists : ∀ F, (s.list F).Retuned (s'.list F)) : s'.Named := by
  intro F
  have hnames : (s'.list F).names = (s.list F).names := (lists F).map_members fun _ _ => rfl
  exact hnames ▸ h F

theorem recipe (h : s.Named) {r : Recipe F} (hr : r.Stock) : (r.build.leaves s).Named := by
  rw [SimulationM.leaves]
  cases hb : r.build s with
  | error e s' => exact h.of_lists (hr.builds.keeps hb)
  | ok object s' =>
      have hguards := hr.guards
      obtain ⟨-, -, -, hothers⟩ := hr.builds.joins hb
      intro G
      by_cases hG : G = F
      · subst hG
        show (s'.list G).names.Nodup
        rw [hguards.names hb]
        exact List.nodup_append.mpr ⟨h G, List.nodup_singleton _, fun n hn m hm e =>
          hguards.new hb (List.mem_singleton.mp hm ▸ e ▸ hn)⟩
      · show (s'.list G).names.Nodup
        rw [hothers G hG]
        exact h G

theorem clearList (h : s.Named) (F : Family) : (s.clearList F).Named := by
  intro G
  by_cases hG : G = F
  · subst hG
    rw [Simulation.clearList, list_withRegistry, list_setList]
    exact List.nodup_nil
  · rw [Simulation.clearList, list_withRegistry, list_setList_of_ne s _ hG]
    exact h G

theorem reset (h : s.Named) : s.reset.Named :=
  ((h.clearList .boundary).clearList .collision).clearList .emitter

end Named

end Simulation

/-- **A restore brings no name twice** when there is none twice in what was written: members of the
same name were one member when they were written, and there is one of each identity. -/
theorem Host.named_of_restore {σ τ : Type} {q : Host} {origin : Origin} {bytes t : Bytes}
    (hw : Stream.write origin s.registry s.store = .put bytes) (hs : s.Named)
    {behaviors : Behaviors} {unpickle : Bytes → ControlM σ τ} {layer : σ} {a : τ}
    (hr : (q.restore (.ok (bytes ++ t)) behaviors unpickle layer).result = .ok (s', a)) :
    s'.Named := by
  intro F
  have hobjects : ((s'.list F).members.map Component.object).Nodup :=
    (restore_sound hr).nodup_members F
  refine List.Nodup.map_on ?_ (List.Nodup.of_map Component.object hobjects)
  intro c hc d hd hname
  obtain ⟨c₀, hc₀, behavior, -, rfl⟩ := exists_member_of_restore hw hr hc
  obtain ⟨d₀, hd₀, behavior', -, rfl⟩ := exists_member_of_restore hw hr hd
  obtain rfl : c₀ = d₀ := List.inj_on_of_nodup_map (hs F) hc₀ hd₀ hname
  exact List.inj_on_of_nodup_map hobjects hc hd rfl

end ParticleSim
