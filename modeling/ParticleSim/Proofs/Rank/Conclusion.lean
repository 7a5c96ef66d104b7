import ParticleSim.Proofs.Rank.Scripts
import Mathlib.Data.Nat.Find
import Mathlib.Order.Monotone.Basic

/-!
# Ranks — Coming to a result

Programs that meet come to the results with which they meet, whatever connects them and whatever
turns they take (`RankProgram.Concludes`, `RankProgram.Meet.concludes`).

How much is left to do is so much for each barrier that is still ahead, what is left of the one that
a rank is at, and one step for each vote that waits (`Network.toil`).  Every turn that changes
anything is less (`Network.toil_act`), and there is one as long as not everybody has finished
(`Network.exists_act_ne`), for the ranks that are behind do not all wait for each other.
-/

namespace ParticleSim

open RankProgram

variable {α : Type}

/-! ### What is left to do -/

/-- How many steps a rank may take before its next barrier, but for the votes it has yet to hear. -/
def Activity.toil : Activity α → Nat
  | computing _ => 1
  | sending _ peers _ => 2 * peers.length + 4
  | sorting _ _ => 3
  | hearing _ _ _ => 2
  | finished _ => 0

/-- How many steps a rank of `world` ranks may take in `rounds` barriers. -/
def Node.toil (world rounds : Nat) (node : Node α) : Nat :=
  (rounds - node.round) * (2 * world + 4) + node.activity.toil + node.inbox.length

theorem Activity.one_lt_toil {a : Activity α} {next : Except CommError Bool → RankProgram α}
    (h : a.next? = some next) : 1 < a.toil := by
  cases a with
  | sending _ _ _ | sorting _ _ | hearing _ _ _ => simp [toil]
  | computing _ | finished _ => cases h

namespace Network

/-- How many steps the ranks may take in `rounds` barriers. -/
def toil (rounds : Nat) (n : Network α) : Nat := (n.nodes.map (Node.toil n.world rounds)).sum

section Toil

variable {rounds r : Nat} {n n' : Network α} {node : Node α}

/-- Whoever comes to a barrier has come to fewer than `rounds` before. -/
def Ahead (rounds : Nat) (n : Network α) : Prop :=
  ∀ (r : Nat) (node : Node α) (vote : Bool) (next : Except CommError Bool → RankProgram α),
    n.nodes[r]? = some node → node.activity = .computing (.barrier vote next) → node.round < rounds

/-- **A turn that changes anything leaves less to do.** -/
theorem toil_turn (ha : n.Ahead rounds) (hr : n.nodes[r]? = some node) (ht : n.Turn r node n')
    (hne : n' ≠ n) : n'.toil rounds < n.toil rounds := by
  -- a turn that concerns one node only
  have hone : ∀ {node' : Node α}, node'.toil n.world rounds < node.toil n.world rounds →
      (n.update r fun _ => node').toil rounds < n.toil rounds := by
    intro node' hlt
    have hupdate := sum_update (Node.toil n.world rounds) hr fun _ => node'
    rw [toil, toil, world_update]
    omega
  cases ht with
  | finish hactivity =>
      refine hone ?_
      simp [Node.toil, Activity.toil, hactivity]
  | start hactivity =>
      have hlt := ha r node _ _ hr hactivity
      have hleft : rounds - node.round = rounds - (node.round + 1) + 1 := by omega
      have hpeers : (n.peers r).length ≤ n.world :=
        (List.length_filter_le _ _).trans_eq List.length_range
      refine hone ?_
      simp only [Node.toil, Activity.toil, hactivity, hleft, Nat.add_mul]
      omega
  | @send ok peer peers next hactivity haccepts =>
      rw [toil, toil, world_update, deliver, world_update]
      refine sum_send hr haccepts (fun receiver vote => ?_) fun sender hround hsame => ?_
      · rw [Node.toil, Node.toil, List.length_append]
        exact Nat.le_refl _
      · simp only [Node.toil, Activity.toil, hsame, hactivity, List.length_cons]
        omega
  | sent hactivity =>
      refine hone ?_
      simp [Node.toil, Activity.toil, hactivity]
  | sort hactivity =>
      refine hone ?_
      simp [Node.toil, Activity.toil, hactivity]
  | hear hactivity hinbox _ =>
      refine hone ?_
      simp [Node.toil, Activity.toil, hactivity, hinbox]
  | keep hactivity hinbox _ =>
      refine hone ?_
      simp [Node.toil, hinbox]
  | resume _ hn =>
      refine hone ?_
      have hpos := Activity.one_lt_toil hn
      show (rounds - node.round) * _ + 1 + node.inbox.length < _
      rw [Node.toil]
      omega
  | wait _ => exact absurd rfl hne

theorem toil_act (ha : n.Ahead rounds) (hne : n.act r ≠ n) :
    (n.act r).toil rounds < n.toil rounds := by
  cases hr : n.nodes[r]? with
  | none => exact absurd (act_of_none hr) hne
  | some node =>
      cases hp : node.present with
      | false => exact absurd (act_of_gone hr hp) hne
      | true => exact toil_turn ha hr (turn_of_act hr hp) hne

end Toil

section Meeting

variable {world rounds : Nat} {programs : Fin world → RankProgram α} {results : Fin world → α}
  {n : Network α}

/-- A meeting is over behind its last barrier. -/
theorem OnCourse.ahead (h : Meet programs rounds results) (hc : n.OnCourse programs rounds)
    (hw : n.world = world) : n.Ahead rounds := by
  intro r node vote next hr hactivity
  obtain ⟨hround, hcourse⟩ := hc ⟨r, hw ▸ lt_world hr⟩ node hr
  rw [hactivity] at hcourse
  exact h.lt_rounds hround hcourse

/-! ### Nobody is stuck -/

/-- Who is outside of a barrier can always go on. -/
theorem act_ne_of_computing {r : Nat} {node : Node α} (hr : n.nodes[r]? = some node)
    (hp : node.present = true) {p : RankProgram α} (hactivity : node.activity = .computing p) :
    n.act r ≠ n := by
  have hact : n.act r = n.update r (Node.advance (n.peers r)) := by
    simp [act, answer?, hr, hp, hactivity]
  intro hsame
  have hget := nodes_update (n := n) (r := r) (p := r) (Node.advance (n.peers r))
  rw [← hact, hsame, if_pos rfl, hr, Option.map_some] at hget
  have hstays := congrArg Node.activity (Option.some.inj hget)
  cases p with
  | done a =>
      rw [Node.advance_done hactivity, hactivity] at hstays
      cases hstays
  | barrier vote next =>
      rw [Node.advance_barrier hactivity, hactivity] at hstays
      cases hstays

/-- **Somebody can go on** as long as not everybody has finished. -/
theorem exists_act_ne (h : Meet programs rounds results) (hn : Reached (List.ofFn programs) n)
    (hm : n.Manned) {r : Nat} {node : Node α} (hr : n.nodes[r]? = some node)
    (hnot : ∀ a, node.activity ≠ .finished a) : ∃ r, n.act r ≠ n := by
  classical
  obtain ⟨hc, hscripts⟩ := hn.onCourse h hm
  have hw : n.world = world := hn.world_ofFn
  -- among those who have not finished, somebody is behind the others
  have hbehind : ∃ (k r : Nat) (node : Node α), n.nodes[r]? = some node ∧
      (∀ a, node.activity ≠ .finished a) ∧ node.round = k := ⟨_, r, node, hr, hnot, rfl⟩
  obtain ⟨r, node, hr, hnot, hround⟩ := Nat.find_spec hbehind
  have hall : ∀ (p : Nat) (peer : Node α), n.nodes[p]? = some peer → node.round ≤ peer.round := by
    intro p peer hp
    by_cases hfinished : ∃ a, peer.activity = .finished a
    · obtain ⟨a, ha⟩ := hfinished
      rw [(hc.eq_results h (r := ⟨p, hw ▸ lt_world hp⟩) hp ha).1]
      exact (hc ⟨r, hw ▸ lt_world hr⟩ node hr).round_le
    · rw [hround]
      exact Nat.find_min' hbehind ⟨p, peer, hp, not_exists.mp hfinished, rfl⟩
  cases hactivity : node.activity with
  | computing p => exact ⟨r, act_ne_of_computing hr (hm r node hr) hactivity⟩
  | finished a => exact absurd hactivity (hnot a)
  | sending _ _ _ | sorting _ _ | hearing _ _ _ =>
      obtain ⟨ledger, hbooked⟩ := hscripts.booked (casts_scripts programs rounds) node.round
      have hinside : (node.scripted (meetingVotes programs r) rounds).activity.inside = true := by
        rw [Node.scripted, hactivity]
        rfl
      obtain ⟨p, -, -, -, -, -, hne⟩ := hbooked.progress (nodes_scripted_of hr) rfl hinside
        (hm.scripted.staffed _) fun q peer hq => by
          rw [nodes_scripted] at hq
          obtain ⟨before, hbefore, rfl⟩ := Option.map_eq_some_iff.mp hq
          exact hall q before hbefore
      refine ⟨p, fun hsame => hne ?_⟩
      rw [← scripted_act h hc hw, hsame]

/-! ### Fair schedules -/

/-- What a turn keeps, turns one after the other keep. -/
theorem follow_acts {P : Network α → Prop} (hact : ∀ n r, P n → P (n.act r)) (h : P n)
    (ranks : List Nat) : P (n.follow (ranks.map .act)) := by
  induction ranks generalizing n with
  | nil => exact h
  | cons r ranks ih => exact ih (hact n r h)

/-- The schedule of the first `t` turns. -/
def turnsUntil (turn : Nat → Nat) (t : Nat) : List Event :=
  (List.range t).map fun i => .act (turn i)

theorem turnsUntil_eq_map (turn : Nat → Nat) (t : Nat) :
    turnsUntil turn t = ((List.range t).map turn).map .act :=
  List.map_map.symm

theorem follow_turnsUntil_succ (turn : Nat → Nat) (t : Nat) :
    n.follow (turnsUntil turn (t + 1)) = (n.follow (turnsUntil turn t)).act (turn t) := by
  rw [turnsUntil, List.range_succ, List.map_append, follow, List.foldl_append]
  rfl

theorem Manned.act (hm : n.Manned) (r : Nat) : (n.act r).Manned := by
  cases hr : n.nodes[r]? with
  | none => rwa [act_of_none hr]
  | some node =>
      intro p node' hp
      have hkept := present_turn hr (turn_of_act hr (hm r node hr)) p
      rw [hp, Option.map_some] at hkept
      obtain ⟨before, hbefore, hpresent⟩ := Option.map_eq_some_iff.mp hkept.symm
      exact hpresent.symm.trans (hm p before hbefore)

theorem Manned.follow_acts (hm : n.Manned) (ranks : List Nat) :
    (n.follow (ranks.map .act)).Manned :=
  Network.follow_acts (fun _ r hm => hm.act r) hm ranks

theorem Manned.follow_turnsUntil (hm : n.Manned) (turn : Nat → Nat) (t : Nat) :
    (n.follow (turnsUntil turn t)).Manned := by
  rw [turnsUntil_eq_map]
  exact hm.follow_acts _

/-- By the turn of a rank that can go on, something has changed. -/
theorem exists_change {turn : Nat → Nat} {t t' : Nat} (ht : t ≤ t')
    (hact : (n.follow (turnsUntil turn t)).act (turn t') ≠ n.follow (turnsUntil turn t)) :
    ∃ s, t ≤ s ∧ n.follow (turnsUntil turn (s + 1)) ≠ n.follow (turnsUntil turn s) := by
  by_contra hnone
  simp only [not_exists, not_and, not_not] at hnone
  have hsame : ∀ s, t ≤ s → n.follow (turnsUntil turn s) = n.follow (turnsUntil turn t) :=
    fun s hts => Nat.le_induction rfl (fun s hts ih => (hnone s hts).trans ih) s hts
  refine hact ?_
  calc (n.follow (turnsUntil turn t)).act (turn t')
      = (n.follow (turnsUntil turn t')).act (turn t') := by rw [hsame t' ht]
    _ = n.follow (turnsUntil turn (t' + 1)) := (follow_turnsUntil_succ turn t').symm
    _ = n.follow (turnsUntil turn t) := hsame _ (Nat.le_succ_of_le ht)

/-- Everybody has finished. -/
def Finished (n : Network α) : Prop :=
  ∀ (r : Nat) (node : Node α), n.nodes[r]? = some node → ∃ a, node.activity = .finished a

/-- **In a fair schedule everybody finishes**: as long as somebody can go on, somebody does. -/
theorem exists_finished (h : Meet programs rounds results) (hn : Reached (List.ofFn programs) n)
    (hm : n.Manned) {turn : Nat → Nat}
    (hfair : ∀ (r : Fin world) (t : Nat), ∃ t', t ≤ t' ∧ turn t' = r) :
    ∃ t, (n.follow (turnsUntil turn t)).Finished := by
  have hreached : ∀ t, Reached (List.ofFn programs) (n.follow (turnsUntil turn t)) :=
    fun t => follow_reached hn _
  have hmanned := hm.follow_turnsUntil turn
  have hw : ∀ t, (n.follow (turnsUntil turn t)).world = world :=
    fun t => (hreached t).world_ofFn
  have hless : ∀ t, n.follow (turnsUntil turn (t + 1)) ≠ n.follow (turnsUntil turn t) →
      (n.follow (turnsUntil turn (t + 1))).toil rounds <
        (n.follow (turnsUntil turn t)).toil rounds := by
    intro t hne
    rw [follow_turnsUntil_succ] at hne ⊢
    exact toil_act (((hreached t).onCourse h (hmanned t)).1.ahead h (hw t)) hne
  have hanti : Antitone fun t => (n.follow (turnsUntil turn t)).toil rounds := by
    refine antitone_nat_of_succ_le fun t => ?_
    by_cases hsame : n.follow (turnsUntil turn (t + 1)) = n.follow (turnsUntil turn t)
    · rw [hsame]
    · exact Nat.le_of_lt (hless t hsame)
  -- by induction on what is left to do at a time
  suffices hfrom : ∀ toil t, (n.follow (turnsUntil turn t)).toil rounds = toil →
      ∃ t, (n.follow (turnsUntil turn t)).Finished from hfrom _ 0 rfl
  intro toil
  induction toil using Nat.strongRecOn with
  | ind toil ih =>
      rintro t rfl
      by_cases hdone : (n.follow (turnsUntil turn t)).Finished
      · exact ⟨t, hdone⟩
      · simp only [Finished, not_forall, not_exists] at hdone
        obtain ⟨r, node, hr, hnot⟩ := hdone
        obtain ⟨q, hq⟩ := exists_act_ne h (hreached t) (hmanned t) hr hnot
        have hqw : q < world := by
          by_contra hnone
          refine hq (act_of_none (List.getElem?_eq_none ?_))
          rw [← hw t] at hnone
          exact Nat.le_of_not_lt hnone
        obtain ⟨t', ht', hturn⟩ := hfair ⟨q, hqw⟩ t
        replace hq : (n.follow (turnsUntil turn t)).act (turn t') ≠ n.follow (turnsUntil turn t) :=
          hturn ▸ hq
        obtain ⟨s, hts, hs⟩ := exists_change ht' hq
        exact ih _ (Nat.lt_of_lt_of_le (hless s hs) (hanti hts)) (s + 1) rfl

end Meeting

end Network

/-! ### Conclusions -/

section Conclusion

variable {world : Nat}

/-- Programs that come to `rounds` barriers all together and have the given results then, whatever
connects them. -/
structure RankProgram.Concludes (programs : Fin world → RankProgram α) (rounds : Nat)
    (results : Fin world → α) : Prop where
  /-- Over connections that tell all ranks of a round whether all are in favour. -/
  conjoined : ∀ answers : Fin world → Nat → Bool → Except CommError Bool,
    Conjoined answers 0 programs → ∀ r, (programs r).run (answers r) 0 = results r ∧
      (ballots (answers r) 0 (programs r)).length = rounds
  /-- In a network that nobody leaves, whoever has finished, and whatever turns were taken. -/
  safe : ∀ n, Network.Reached (List.ofFn programs) n → n.Manned →
    ∀ (r : Fin world) (node : Node α) a, n.nodes[r.val]? = some node →
      node.activity = .finished a → node.round = rounds ∧ a = results r
  /-- And everybody finishes there, when everybody's turn comes again and again. -/
  live : ∀ n, Network.Reached (List.ofFn programs) n → n.Manned → ∀ turn : Nat → Nat,
    (∀ (r : Fin world) (t : Nat), ∃ t', t ≤ t' ∧ turn t' = r) →
      ∃ t, ∀ r : Fin world, (n.follow (Network.turnsUntil turn t)).result? r = some (results r)

/-- **Programs that meet come to the results with which they meet.** -/
theorem RankProgram.Meet.concludes {programs : Fin world → RankProgram α} {rounds : Nat}
    {results : Fin world → α} (h : Meet programs rounds results) :
    Concludes programs rounds results where
  conjoined _ hc r := h.run_eq hc r
  safe _ hn hm _ _ _ hr ha := (hn.onCourse h hm).1.eq_results h hr ha
  live n hn hm turn hfair := by
    obtain ⟨t, hall⟩ := Network.exists_finished h hn hm hfair
    have hreached : Network.Reached (List.ofFn programs) (n.follow (Network.turnsUntil turn t)) :=
      Network.follow_reached hn _
    have hc := (hreached.onCourse h (hm.follow_turnsUntil turn t)).1
    refine ⟨t, fun r => ?_⟩
    obtain ⟨node, hr⟩ := Network.exists_node (Nat.lt_of_lt_of_eq r.isLt hreached.world_ofFn.symm)
    obtain ⟨a, ha⟩ := hall r node hr
    simp only [Network.result?, hr, ha, (hc.eq_results h hr ha).2]

end Conclusion

end ParticleSim
