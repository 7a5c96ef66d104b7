import ParticleSim.Proofs.Host.Lockstep
import ParticleSim.Proofs.Restore.Acceptance

/-!
# Host — How far a restore is all or nothing

A restore succeeds on a rank when the simulation has been put together on every rank and the control
layer of this one takes its state back.  The last step comes behind the last barrier, so no other
rank learns of it: all succeed or all fail as long as the control layers are of one mind
(`Host.restore_all_or_nothing`), but when one of them refuses its state, the others have restored
(`Host.restore_half`).
-/

namespace ParticleSim

open RankProgram

variable {σ τ : Type} {world : Nat}

namespace Host

/-- The control layer takes the state of the simulation that has been put together. -/
def Attempt.Taken (a : Attempt σ τ) : Prop :=
  ∃ s supply x state, a.connected = .ok (s, supply) ∧
    a.unpickle s.control ({ a.opened.voted.voted with supply }, a.layer) = .ok x state

theorem Attempt.handOver_eq_ok {a : Attempt σ τ} {s : Simulation} {supply : InstanceSupply}
    (h : a.connected = .ok (s, supply)) :
    (∃ x, (a.handOver s supply).result = .ok x) ↔ a.Taken := by
  constructor
  · rintro ⟨⟨s', x⟩, hx⟩
    obtain ⟨hs, state, hu⟩ := giveBack_eq_ok.mp hx
    cases hs
    exact ⟨s, supply, x, state, h, hu⟩
  · rintro ⟨s', supply', x, state, h', hu⟩
    rw [h] at h'
    cases h'
    exact ⟨(s, x), giveBack_eq_ok.mpr ⟨rfl, state, hu⟩⟩

/-- When the simulation is not put together on some rank, nobody restores. -/
theorem InLockstep.exists_error {entries : Fin world → Entry σ τ} (h : InLockstep entries)
    (hfails : ¬ ∀ s, ∃ c, (entries s).attempt.connected = .ok c) (r : Fin world) :
    ∃ e, (entries r).restored.result = .error e := by
  by_cases hdecoded : ∀ s, ∃ d, (entries s).attempt.decoded = .ok d
  · obtain ⟨s, hs⟩ := not_forall.mp hfails
    exact ⟨_, (h.connect hdecoded ⟨s, exists_error_iff.mpr hs⟩ r).2⟩
  · obtain ⟨s, hs⟩ := not_forall.mp hdecoded
    exact ⟨_, (h.decode ⟨s, exists_error_iff.mpr hs⟩ r).2⟩

/-- **A rank restores** when the simulation has been put together on every rank and its own control
layer takes the state back. -/
theorem InLockstep.exists_ok_iff {entries : Fin world → Entry σ τ} (h : InLockstep entries)
    (r : Fin world) :
    (∃ x, (entries r).restored.result = .ok x) ↔
      (∀ s, ∃ c, (entries s).attempt.connected = .ok c) ∧ (entries r).attempt.Taken := by
  by_cases hall : ∀ s, ∃ c, (entries s).attempt.connected = .ok c
  · obtain ⟨-, s, supply, hconnected, hrestored⟩ := h.unpickle hall r
    rw [hrestored, Attempt.handOver_eq_ok hconnected]
    exact ⟨fun ht => ⟨hall, ht⟩, fun ht => ht.2⟩
  · exact ⟨fun hok => absurd hok (exists_error_iff.mp (h.exists_error hall r)),
      fun ht => absurd ht.1 hall⟩

/-- **A restore is all or nothing but for the control layers.**  Whatever turns the ranks take, all
of them fail when the simulation is not put together on one of them.  When it is on all of them,
each rank succeeds whose control layer takes its state back. -/
theorem restore_all_or_nothing (attempts : Fin world → Attempt σ τ)
    (hidle : ∀ r, (attempts r).host.services.phase = .idle) :
    ∃ barriers results, Concludes (fun r => (attempts r).program) barriers results ∧
      (∀ r, (∃ x, (results r).result = .ok x) ↔
        (∀ s, ∃ c, (attempts s).connected = .ok c) ∧ (attempts r).Taken) ∧
      (((∀ r, ∃ x, (results r).result = .ok x) ∨ ∀ r, ∃ e, (results r).result = .error e) ↔
        ((∀ s, ∃ c, (attempts s).connected = .ok c) →
          (∀ r, (attempts r).Taken) ∨ ∀ r, ¬ (attempts r).Taken)) := by
  obtain ⟨barriers, results, hmeet, hlockstep⟩ := Attempt.program_meet attempts hidle
  have hok : ∀ r, (∃ x, (results r).result = .ok x) ↔
      (∀ s, ∃ c, (attempts s).connected = .ok c) ∧ (attempts r).Taken := hlockstep.exists_ok_iff
  refine ⟨barriers, results, hmeet.concludes, hok, ?_⟩
  simp only [exists_error_iff, hok]
  by_cases hall : ∀ s, ∃ c, (attempts s).connected = .ok c
  · simp only [hall, implies_true, true_and, true_imp_iff]
  · simp only [hall, false_and, false_imp_iff, not_false_eq_true, implies_true, or_true]

/-! ### Two ranks of two minds -/

/-- What a rank has put together does not depend on its control layer, nor on the other ranks. -/
theorem Attempt.connected_of_restore {τ' : Type} {a : Attempt σ τ}
    {unpickle : Bytes → ControlM σ τ'} {s : Simulation} {x : τ'}
    (h : (a.host.restore a.input a.behaviors unpickle a.layer).result = .ok (s, x)) :
    ∃ supply, a.connected = .ok (s, supply) := by
  obtain ⟨-, bytes, header, staged, supply, hinput, hdecode, -, hconnect, -⟩ := restore_eq_ok.mp h
  have hdecoded : a.decoded = .ok (header, staged) := by
    rw [Attempt.decoded, hinput]
    exact hdecode
  exact ⟨supply, by rw [Attempt.connected, hdecoded]; exact hconnect⟩

/-- Two ranks that restore a simulation with members in every list each.  The control layer of the
first one refuses its state. -/
def halfAttempt (r : Fin 2) : Attempt Unit Bytes where
  host := ⟨⟨{}, ⟨.ofNat r, 2, fun _ vote => .ok vote⟩, .idle, 1⟩, .empty, ⟨3⟩⟩
  input := .ok (Stream.write ⟨"plasma-engine 0.1.9", .ofNat r, 2⟩ Simulation.populated.registry
    Simulation.populated.store).bytes
  behaviors := Simulation.populated.behaviors
  unpickle control state :=
    if r = 0 then .error (.controlState "refused") state else .ok control state
  layer := ()

theorem halfAttempt_connected (r : Fin 2) : ∃ c, (halfAttempt r).connected = .ok c := by
  have hw : Stream.write ⟨"plasma-engine 0.1.9", .ofNat r, 2⟩ Simulation.populated.registry
      Simulation.populated.store = .put _ :=
    Emission.eq_put_iff.mpr ⟨by revert r; decide +kernel, rfl⟩
  obtain ⟨x, hx⟩ : ∃ x, ((halfAttempt r).host.restore (.ok (_ ++ [])) (halfAttempt r).behaviors
      (fun control state => .ok control state) (halfAttempt r).layer).result = .ok (_, x) :=
    restore_bound Simulation.reached_populated.sound Simulation.reached_populated.furnished hw
      rfl rfl rfl (fun _ => rfl) [] fun control state => ⟨control, state, rfl⟩
  rw [List.append_nil] at hx
  obtain ⟨supply, hconnected⟩ := Attempt.connected_of_restore (a := halfAttempt r) hx
  exact ⟨_, hconnected⟩

theorem halfAttempt_taken (r : Fin 2) : (halfAttempt r).Taken ↔ r ≠ 0 := by
  obtain ⟨⟨s, supply⟩, hconnected⟩ := halfAttempt_connected r
  constructor
  · rintro ⟨s', supply', x, state, -, hu⟩ rfl
    cases hu
  · intro hr
    exact ⟨s, supply, _, _, hconnected, if_neg hr⟩

/-- Neither all of them restore nor none. -/
theorem restore_all_or_nothing_half : ∃ barriers results,
    Concludes (fun r => (halfAttempt r).program) barriers results ∧
      ¬ ((∀ r, ∃ x, (results r).result = .ok x) ∨ ∀ r, ∃ e, (results r).result = .error e) := by
  obtain ⟨barriers, results, hconcludes, -, hiff⟩ := restore_all_or_nothing halfAttempt fun _ => rfl
  refine ⟨barriers, results, hconcludes, fun h => ?_⟩
  rcases hiff.mp h halfAttempt_connected with htaken | hnone
  · exact (halfAttempt_taken 0).mp (htaken 0) rfl
  · exact hnone 1 ((halfAttempt_taken 1).mpr (by decide))

/-- **A restore may be half done**: the ranks take turns, both have come back, and the first has
failed where the second has not. -/
theorem restore_half : ∃ n : Network (Restored Unit Bytes),
    Network.Reached (List.ofFn fun r => (halfAttempt r).program) n ∧ n.Manned ∧
      (∃ restored, n.result? 0 = some restored ∧
        restored.result = .error (.controlState "refused")) ∧
      ∃ restored x, n.result? 1 = some restored ∧ restored.result = .ok x := by
  obtain ⟨barriers, results, hmeet, hlockstep⟩ :=
    Attempt.program_meet halfAttempt fun _ => rfl
  have hmanned := Network.manned_ofPrograms (List.ofFn fun r => (halfAttempt r).program)
  obtain ⟨t, hfinished⟩ := hmeet.concludes.live _ .refl hmanned (· % 2) fun r t =>
    ⟨2 * t + r, by omega, by omega⟩
  refine ⟨_, Network.follow_reached .refl _, hmanned.follow_turnsUntil _ t,
    ⟨_, hfinished 0, ?_⟩, ?_⟩
  · obtain ⟨-, s, supply, -, hrestored⟩ := hlockstep.unpickle halfAttempt_connected 0
    rw [show results 0 = (halfAttempt 0).handOver s supply from hrestored]
    rfl
  · obtain ⟨x, hx⟩ := (hlockstep.exists_ok_iff 1).mpr
      ⟨halfAttempt_connected, (halfAttempt_taken 1).mpr (by decide)⟩
    exact ⟨_, x, hfinished 1, hx⟩

end Host

end ParticleSim
