import ParticleSim.Rank.Barrier

/-!
# Ranks — Programs that meet

Programs that come to the same barriers, when each of these tells all of them whether the votes cast
there are all in favour (`RankProgram.Meet`).  Programs that meet one after the other meet
(`RankProgram.Meet.bind`), so that it is enough to look at one part of a program at a time.

* `RankProgram.Meet.run_eq`: over connections that conjoin the votes of each round, the programs
  have the results with which they meet, and as many rounds.
* `RankProgram.stage` are the programs behind a number of barriers, and
  `RankProgram.Meet.eq_rounds` says that none of them is done before the last of these.
-/

namespace ParticleSim

namespace RankProgram

variable {α β : Type} {world : Nat}

/-- Programs that come to `rounds` barriers all together, where each is told whether all are in
favour, and have the given results then. -/
inductive Meet : (Fin world → RankProgram α) → (rounds : Nat) → (Fin world → α) → Prop where
  | done {programs : Fin world → RankProgram α} {results : Fin world → α}
      (h : ∀ r, programs r = .done (results r)) : Meet programs 0 results
  | barrier {programs : Fin world → RankProgram α} {rounds : Nat} {results : Fin world → α}
      {votes : Fin world → Bool} {next : Fin world → Except CommError Bool → RankProgram α}
      (h : ∀ r, programs r = .barrier (votes r) (next r))
      (rest : Meet (fun r => next r (.ok (decide (∀ s, votes s = true)))) rounds results) :
      Meet programs (rounds + 1) results

variable {programs : Fin world → RankProgram α} {rounds : Nat} {results : Fin world → α}

/-- Programs that are done have met. -/
theorem Meet.pure (results : Fin world → α) :
    Meet (fun r => RankProgram.done (results r)) 0 results :=
  .done fun _ => rfl

/-- **Programs that meet, and meet again**, meet. -/
theorem Meet.bind (h : Meet programs rounds results) {next : Fin world → α → RankProgram β}
    {rounds' : Nat} {results' : Fin world → β}
    (h' : Meet (fun r => next r (results r)) rounds' results') :
    Meet (fun r => programs r >>= next r) (rounds + rounds') results' := by
  induction h with
  | @done programs results hdone =>
      obtain rfl : programs = fun r => .done (results r) := funext hdone
      rw [Nat.zero_add]
      exact h'
  | @barrier programs rounds results votes after hbarrier _ ih =>
      obtain rfl : programs = fun r => .barrier (votes r) (after r) := funext hbarrier
      rw [Nat.add_right_comm]
      exact .barrier (fun _ => rfl) (ih h')

/-- What is made of the results needs no barrier. -/
theorem Meet.map (h : Meet programs rounds results) (f : Fin world → α → β) :
    Meet (fun r => programs r >>= fun a => .done (f r a)) rounds fun r => f r (results r) := by
  show Meet _ (rounds + 0) _
  exact h.bind (.pure fun r => f r (results r))

/-! ### Counting -/

/-- Tell how many barriers a program has been at. -/
def counted : RankProgram α → RankProgram (α × Nat)
  | done a => done (a, 0)
  | barrier vote next => barrier vote fun answer =>
      bind (counted (next answer)) fun (a, barriers) => done (a, barriers + 1)

theorem Meet.counted (h : Meet programs rounds results) :
    Meet (fun r => (programs r).counted) rounds fun r => (results r, rounds) := by
  induction h with
  | done hdone => exact .done fun r => by rw [hdone r, RankProgram.counted]
  | @barrier programs rounds results votes next hbarrier _ ih =>
      exact .barrier (fun r => by rw [hbarrier r, RankProgram.counted])
        (ih.map fun _ a => (a.1, a.2 + 1))

/-! ### Connections that conjoin -/

/-- The votes that a program casts against given answers. -/
def ballots (answer : Nat → Bool → Except CommError Bool) :
    (round : Nat) → RankProgram α → List Bool
  | _, done _ => []
  | round, barrier vote next => vote :: ballots answer (round + 1) (next (answer round vote))

/-- In each round that all come to, all are told whether the votes are all in favour. -/
def Conjoined (answers : Fin world → Nat → Bool → Except CommError Bool) (round : Nat)
    (programs : Fin world → RankProgram α) : Prop :=
  ∀ k (votes : Fin world → Bool),
    (∀ r, (ballots (answers r) round (programs r))[k]? = some (votes r)) →
      ∀ r, answers r (round + k) (votes r) = .ok (decide (∀ s, votes s = true))

/-- **Over a connection that conjoins, programs that meet come to their results**, and to as many
barriers. -/
theorem Meet.run_eq (h : Meet programs rounds results)
    {answers : Fin world → Nat → Bool → Except CommError Bool} {round : Nat}
    (hc : Conjoined answers round programs) (r : Fin world) :
    (programs r).run (answers r) round = results r ∧
      (ballots (answers r) round (programs r)).length = rounds := by
  induction h generalizing round with
  | done hdone =>
      rw [hdone r]
      exact ⟨rfl, rfl⟩
  | @barrier programs rounds results votes next hbarrier _ ih =>
      obtain rfl : programs = fun r => .barrier (votes r) (next r) := funext hbarrier
      have hanswer : ∀ r, answers r round (votes r) = .ok (decide (∀ s, votes s = true)) :=
        hc 0 votes fun _ => rfl
      have hrest : Conjoined answers (round + 1)
          fun r => next r (.ok (decide (∀ s, votes s = true))) := by
        intro k votes' hvotes r
        rw [Nat.add_assoc, Nat.add_comm 1 k]
        refine hc (k + 1) votes' (fun r => ?_) r
        rw [ballots, List.getElem?_cons_succ, hanswer r]
        exact hvotes r
      obtain ⟨hrun, hlength⟩ := ih hrest
      rw [run, ballots, List.length_cons, hanswer r]
      exact ⟨hrun, congrArg (· + 1) hlength⟩

/-! ### Stages -/

/-- The vote at the barrier that a program is about to come to, if there is one. -/
def nextVote : RankProgram α → Bool
  | done _ => true
  | barrier vote _ => vote

/-- Come back from that barrier. -/
def told (answer : Bool) : RankProgram α → RankProgram α
  | done a => done a
  | barrier _ next => next (.ok answer)

/-- Whether all that are about to vote are in favour. -/
def unanimous (programs : Fin world → RankProgram α) : Bool :=
  decide (∀ r, (programs r).nextVote = true)

/-- Every program behind one barrier more. -/
def answered (programs : Fin world → RankProgram α) (r : Fin world) : RankProgram α :=
  (programs r).told (unanimous programs)

/-- The programs behind `k` barriers. -/
def stage (programs : Fin world → RankProgram α) : (k : Nat) → Fin world → RankProgram α
  | 0 => programs
  | k + 1 => answered (stage programs k)

theorem stage_succ (programs : Fin world → RankProgram α) (k : Nat) :
    stage programs (k + 1) = stage (answered programs) k := by
  induction k with
  | zero => rfl
  | succ k ih => rw [stage, ih, stage]

theorem answered_of_barrier {votes : Fin world → Bool}
    {next : Fin world → Except CommError Bool → RankProgram α}
    (h : ∀ r, programs r = .barrier (votes r) (next r)) :
    answered programs = fun r => next r (.ok (decide (∀ s, votes s = true))) := by
  obtain rfl : programs = fun r => .barrier (votes r) (next r) := funext h
  rfl

/-- All programs are at a barrier at each stage before the last one. -/
theorem Meet.stage_of_lt (h : Meet programs rounds results) {k : Nat} (hk : k < rounds)
    (r : Fin world) : ∃ vote next, stage programs k r = .barrier vote next := by
  induction h generalizing k with
  | done _ => cases hk
  | barrier hbarrier _ ih =>
      cases k with
      | zero => exact ⟨_, _, hbarrier r⟩
      | succ k =>
          rw [stage_succ, answered_of_barrier hbarrier]
          exact ih (Nat.lt_of_succ_lt_succ hk)

/-- And all of them are done at the last one. -/
theorem Meet.stage_rounds (h : Meet programs rounds results) (r : Fin world) :
    stage programs rounds r = .done (results r) := by
  induction h with
  | done hdone => exact hdone r
  | barrier hbarrier _ ih =>
      rw [stage_succ, answered_of_barrier hbarrier]
      exact ih

/-- Who is done has been at all barriers, and has its result. -/
theorem Meet.eq_rounds (h : Meet programs rounds results) {k : Nat} (hk : k ≤ rounds)
    {r : Fin world} {a : α} (hdone : stage programs k r = .done a) : k = rounds ∧ a = results r := by
  rcases Nat.lt_or_eq_of_le hk with hlt | rfl
  · obtain ⟨vote, next, hbarrier⟩ := h.stage_of_lt hlt r
    rw [hdone] at hbarrier
    cases hbarrier
  · rw [h.stage_rounds r] at hdone
    cases hdone
    exact ⟨rfl, rfl⟩

/-- Who is at a barrier has not been at all of them. -/
theorem Meet.lt_rounds (h : Meet programs rounds results) {k : Nat} (hk : k ≤ rounds)
    {r : Fin world} {vote : Bool} {next : Except CommError Bool → RankProgram α}
    (hbarrier : stage programs k r = .barrier vote next) : k < rounds := by
  refine Nat.lt_of_le_of_ne hk ?_
  rintro rfl
  rw [h.stage_rounds r] at hbarrier
  cases hbarrier

end RankProgram

end ParticleSim
