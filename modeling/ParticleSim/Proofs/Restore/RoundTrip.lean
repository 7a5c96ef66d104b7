import ParticleSim.Proofs.Restore.Revival
import ParticleSim.Proofs.Simulation.Histories

/-!
# Restores — Round trips

* `Host.restore_checkpoint`: a checkpoint can be restored under any tables that have the symbols of
  the members, and gives the simulation back.
-/

namespace ParticleSim

namespace Host

/-- The simulation of a checkpoint that succeeded was written to the end. -/
theorem write_of_checkpoint {σ : Type} {p : Host} {s : Simulation} {capacity : Option Nat}
    {pickle : ControlM σ Bytes} {layer : σ} {n : UInt64}
    (h : (p.checkpoint s capacity pickle layer).result = .ok n) :
    ∃ control state, pickle (p.setPhase .checkpoint, layer) = .ok control state ∧
      (p.checkpoint s capacity pickle layer).simulation = { s with control } ∧
      Stream.write (p.checkpoint s capacity pickle layer).host.services.origin s.registry
        ({ s with control } : Simulation).store =
          .put (p.checkpoint s capacity pickle layer).output := by
  obtain ⟨-, control, q, hp, hq, hs, -, hw, -⟩ := checkpoint_eq_ok.mp
    (show p.checkpoint s capacity pickle layer = ⟨.ok n, _, _, _, _⟩ by rw [← h])
  refine ⟨control, _, hp, hs, ?_⟩
  rw [hq, ← hs]
  exact Emission.eq_put_of_within hw

/-- **A checkpoint can be restored.**  Whatever the history of the simulation, the control state
that was serialized and the bytes behind the stream: a restore on the same rank succeeds, as far as
the other ranks and the control layer let it, exactly when the tables have a behavior for every
symbol of a member.  Then the simulation is the one that was written, up to these behaviors, in
lists of its own. -/
theorem restore_checkpoint {σ σ' τ : Type} {p q : Host} {s : Simulation} (hs : s.Reached)
    {capacity : Option Nat} {pickle : ControlM σ Bytes} {layer : σ} {n : UInt64}
    (hc : (p.checkpoint s capacity pickle layer).result = .ok n)
    (hrank : q.services.comm.rank =
      (p.checkpoint s capacity pickle layer).host.services.comm.rank)
    (hworld : q.services.comm.world =
      (p.checkpoint s capacity pickle layer).host.services.comm.world)
    (hidle : q.services.phase = .idle)
    (hpeers : ∀ round, q.services.comm.answer round true = .ok true)
    (behaviors : Behaviors) (t : Bytes) {unpickle : Bytes → ControlM σ' τ} {layer' : σ'}
    (hunpickle : ∀ control state, ∃ a state', unpickle control state = .ok a state') :
    ((∃ s' a, (q.restore (.ok ((p.checkpoint s capacity pickle layer).output ++ t)) behaviors
        unpickle layer').result = .ok (s', a)) ↔
      ∀ F, ∀ c ∈ (s.list F).members, ∀ b ∈ c.behavior,
        ((behaviors.table F).find? b.symbol).isSome) ∧
    ∀ s' a, (q.restore (.ok ((p.checkpoint s capacity pickle layer).output ++ t)) behaviors
        unpickle layer').result = .ok (s', a) →
      ∃ control, (∃ state, pickle (p.setPhase .checkpoint, layer) = .ok control state) ∧
        ({ s with control } : Simulation).Revived behaviors s' ∧
        (∀ F, (s'.list F).place = q.supply.place F) ∧
        ∃ state state', unpickle control state = .ok a state' := by
  obtain ⟨control, state, hp, -, hw⟩ := write_of_checkpoint hc
  have hsound : ({ s with control } : Simulation).Sound :=
    hs.sound.retuned (s.withControl_retuned control)
  have hrestore : ∀ {s' a}, (q.restore (.ok ((p.checkpoint s capacity pickle layer).output ++ t))
      behaviors unpickle layer').result = .ok (s', a) ↔ _ :=
    restore_written hsound hw hrank.symm hworld.symm hidle (hpeers _) (hpeers _) t
  -- the control state that was serialized is none of the lists' business
  have hlist : ∀ F, ({ s with control } : Simulation).list F = s.list F := fun F => by
    cases F <;> rfl
  have hrevived := Simulation.exists_revived_iff { s with control } behaviors q.supply.place
  simp only [hlist] at hrevived
  constructor
  · rw [← hrevived]
    constructor
    · rintro ⟨s', a, h⟩
      obtain ⟨hr, hplace, -⟩ := hrestore.mp h
      exact ⟨s', hr, hplace⟩
    · rintro ⟨s', hr, hplace⟩
      obtain ⟨a, state', hu⟩ := hunpickle s'.control ({ (q.setPhase .restore).voted.voted with
        supply := ⟨q.supply.next + 3⟩ }, layer')
      exact ⟨s', a, hrestore.mpr ⟨hr, hplace, state', hu⟩⟩
  · intro s' a h
    obtain ⟨hr, hplace, state', hu⟩ := hrestore.mp h
    exact ⟨control, ⟨state, hp⟩, hr, hplace, _, state', hr.control ▸ hu⟩

/-- A process without peers and files writes a simulation with one boundary condition and reads it
back. -/
theorem restore_checkpoint_alone :
    ∃ s' control, (restore ⟨⟨{}, .alone, .idle, 1⟩, .empty, ⟨3⟩⟩
      (.ok ((checkpoint ⟨⟨{}, .alone, .idle, 1⟩, .empty, ⟨3⟩⟩
        ((Simulation.define .boundary "wall" BoundaryKind.absorbTally (BoundaryParams.tally [0])
          (some "absorb_tally")).leaves (Simulation.new .builtin ⟨0⟩).1)
        none (fun state => .ok [7] state) ()).output ++ [1, 2, 3])) .builtin
      (fun control state => .ok control state) ()).result = .ok (s', control) :=
  (restore_checkpoint
    ((Simulation.Reached.new .builtin ⟨0⟩).step (.define .boundary "wall" BoundaryKind.absorbTally
      (BoundaryParams.tally [0]) (some "absorb_tally")) (by decide))
    (n := 6) (by decide +kernel) (by decide +kernel) (by decide +kernel) rfl (fun _ => rfl) .builtin
    [1, 2, 3] (fun control state => ⟨control, state, rfl⟩)).1.mpr (by
      intro F c hc b hb
      cases F with
      | boundary =>
          obtain rfl := List.mem_singleton.mp hc
          cases hb
          rfl
      | collision => cases hc
      | emitter => cases hc)

end Host

end ParticleSim
