import ParticleSim.Rank.Network
import Mathlib.Data.List.Nodup
import Mathlib.Logic.Relation

/-!
# Ranks — Turns

One step of one rank is one of nine turns (`Network.Turn`, `Network.turn_of_act`): all but one of
them change the node of that rank only, and sending a vote changes the inbox of the peer, too.

* `Network.Move` is what may happen: a rank takes its turn, a rank goes away, or the votes that wait
  for a rank change their order, for a channel need not keep it.
* `Network.Reached` is what comes of moves, and so of every schedule (`Network.follow_reached`).
* `RankProgram.Casts` is a program whose votes do not depend on the answers.
-/

namespace ParticleSim

/-- A program that casts given votes, the next one at its `k`-th barrier, for as long as it goes
on. -/
inductive RankProgram.Casts {α : Type} (votes : Nat → Bool) : Nat → RankProgram α → Prop where
  | done {k : Nat} (a : α) : Casts votes k (.done a)
  | barrier {k : Nat} {next : Except CommError Bool → RankProgram α}
      (h : ∀ answer, Casts votes (k + 1) (next answer)) : Casts votes k (.barrier (votes k) next)

namespace RankProgram

variable {α β : Type} {votes : Nat → Bool} {k : Nat}

theorem Casts.bind_done {p : RankProgram α} (h : p.Casts votes k) (f : α → β) :
    (p.bind fun a => RankProgram.done (f a)).Casts votes k := by
  induction h with
  | done a => exact .done _
  | barrier _ ih => exact .barrier ih

/-- Casting votes in order. -/
theorem castAll_casts (oks : List Bool) (h : ∀ i ok, oks[i]? = some ok → votes (k + i) = ok) :
    (castAll oks).Casts votes k := by
  induction oks generalizing k with
  | nil => exact .done _
  | cons ok oks ih =>
      obtain rfl : votes k = ok := h 0 ok rfl
      refine .barrier fun answer => Casts.bind_done (ih fun i ok hi => ?_) _
      rw [Nat.add_assoc, Nat.add_comm 1 i]
      exact h (i + 1) ok hi

/-- The vote of each rank at each barrier, for sequences of votes that are cast in order. -/
def votesOf (oks : List (List Bool)) (rank k : Nat) : Bool :=
  ((oks[rank]?).bind fun oks => oks[k - 1]?).getD true

theorem casts_votesOf (oks : List (List Bool)) (p : Nat)
    (program : RankProgram (List (Except CommError Bool)))
    (h : (oks.map castAll)[p]? = some program) : program.Casts (votesOf oks p) 1 := by
  rw [List.getElem?_map] at h
  obtain ⟨votes, hp, rfl⟩ := Option.map_eq_some_iff.mp h
  refine castAll_casts votes fun i ok hi => ?_
  rw [votesOf, hp, Option.bind_some, Nat.add_sub_cancel_left, hi, Option.getD_some]

end RankProgram

/-! ### Where a rank is -/

namespace Activity

variable {α : Type}

/-- Whether a rank is inside of a barrier. -/
def inside : Activity α → Bool
  | sending .. | sorting .. | hearing .. => true
  | computing _ | finished _ => false

/-- The peers that a rank still has to send its vote to. -/
def remaining : Activity α → List Nat
  | sending _ peers _ => peers
  | computing _ | sorting .. | hearing .. | finished _ => []

/-- How many votes of the round a rank has heard. -/
def heard : Activity α → Nat
  | hearing _ heard _ => heard
  | computing _ | sending .. | sorting .. | finished _ => 0

theorem remaining_of_outside {a : Activity α} (h : a.inside = false) : a.remaining = [] := by
  cases a with
  | computing _ | finished _ => rfl
  | sending _ _ _ | sorting _ _ | hearing _ _ _ => cases h

end Activity

namespace Node

variable {α : Type} {node : Node α} {j k peer : Nat}

/-- The rank has come back from its `k`-th barrier. -/
def Returned (node : Node α) (k : Nat) : Prop :=
  k < node.round ∨ k = node.round ∧ node.activity.inside = false

/-- The rank is at its `k`-th barrier and has not sent its vote to a peer yet. -/
def Owes (node : Node α) (k peer : Nat) : Prop :=
  node.round = k ∧ peer ∈ node.activity.remaining

instance (node : Node α) (k peer : Nat) : Decidable (node.Owes k peer) :=
  inferInstanceAs (Decidable (_ ∧ _))

/-- The rank has come to its `k`-th barrier, and does not owe a peer its vote any more. -/
def Sent (node : Node α) (k peer : Nat) : Prop :=
  1 ≤ k ∧ k ≤ node.round ∧ ¬ node.Owes k peer

theorem Returned.le (h : node.Returned k) : k ≤ node.round := by
  rcases h with h | ⟨rfl, -⟩
  · exact Nat.le_of_lt h
  · exact Nat.le_refl _

theorem Returned.of_le (h : node.Returned k) (hj : j ≤ k) : node.Returned j := by
  rcases h with h | ⟨rfl, h⟩
  · exact .inl (Nat.lt_of_le_of_lt hj h)
  · rcases Nat.lt_or_eq_of_le hj with hj | rfl
    · exact .inl hj
    · exact .inr ⟨rfl, h⟩

/-- Who has come back from a barrier has sent its vote to everyone. -/
theorem Returned.sent (h : node.Returned k) (hk : 1 ≤ k) : node.Sent k peer := by
  refine ⟨hk, h.le, ?_⟩
  rintro ⟨rfl, hp⟩
  rcases h with h | ⟨-, h⟩
  · exact Nat.lt_irrefl _ h
  · rw [Activity.remaining_of_outside h] at hp
    cases hp

/-- Whether a node has sent and returned is seen from its round and its activity. -/
theorem sent_congr {node' : Node α} (hr : node'.round = node.round)
    (ha : node'.activity.remaining = node.activity.remaining) :
    node'.Sent k peer ↔ node.Sent k peer := by
  rw [Sent, Sent, Owes, Owes, hr, ha]

theorem returned_congr {node' : Node α} (hr : node'.round = node.round)
    (ha : node'.activity.inside = node.activity.inside) : node'.Returned k ↔ node.Returned k := by
  rw [Returned, Returned, hr, ha]

/-! ### Steps of one node -/

section Advance

variable {peers : List Nat} {ok : Bool} {heard : Nat} {next : Except CommError Bool → RankProgram α}

theorem advance_done {a : α} (h : node.activity = .computing (.done a)) :
    node.advance peers = { node with activity := .finished a } := by
  rw [advance, h]

theorem advance_barrier (h : node.activity = .computing (.barrier ok next)) :
    node.advance peers =
      { node with activity := .sending ok peers next, round := node.round + 1 } := by
  rw [advance, h]

theorem advance_sent (h : node.activity = .sending ok [] next) :
    node.advance peers = { node with activity := .sorting ok next } := by
  rw [advance, h]

theorem advance_sorting (h : node.activity = .sorting ok next) :
    node.advance peers =
      { node with
        activity := .hearing (ok && (node.early.filter fun v => v.round = node.round).all Vote.ok)
          (node.early.filter fun v => v.round = node.round).length next
        early := node.early.filter fun v => v.round ≠ node.round } := by
  have hothers : (not ∘ fun v : Vote => decide (v.round = node.round)) =
      fun v => decide (v.round ≠ node.round) := by
    funext v
    simp
  rw [advance, h]
  simp only [List.partition_eq_filter_filter, hothers]

theorem advance_waiting (h : node.activity = .hearing ok heard next) (hi : node.inbox = []) :
    node.advance peers = node := by
  simp only [advance, h, hi]

theorem advance_hearing {vote : Vote} {inbox : List Vote}
    (h : node.activity = .hearing ok heard next) (hi : node.inbox = vote :: inbox) :
    node.advance peers =
      if vote.round = node.round then
        { node with activity := .hearing (ok && vote.ok) (heard + 1) next, inbox }
      else { node with inbox, early := node.early ++ [vote] } := by
  simp only [advance, h, hi]

theorem advance_finished {a : α} (h : node.activity = .finished a) : node.advance peers = node := by
  simp only [advance, h]

end Advance

end Node

/-! ### Where the network is -/

namespace Network

variable {α : Type} {n n' : Network α} {r p k : Nat} {node : Node α}

theorem nodes_update (f : Node α → Node α) :
    (n.update r f).nodes[p]? = if r = p then n.nodes[p]?.map f else n.nodes[p]? := by
  rw [update, List.getElem?_modify]
  by_cases h : r = p
  · rw [if_pos h]
    simp only [h, if_true, Option.map_eq_map]
  · rw [if_neg h]
    simp only [h, if_false, Option.map_eq_map, Option.map_id']

/-- After an update a node is the one that was updated, or another one and as before. -/
theorem of_nodes_update {f : Node α → Node α} {node' : Node α}
    (h : (n.update r f).nodes[p]? = some node') :
    p = r ∧ (∃ before, n.nodes[r]? = some before ∧ f before = node') ∨
      p ≠ r ∧ n.nodes[p]? = some node' := by
  rw [nodes_update] at h
  by_cases hrp : r = p
  · subst hrp
    rw [if_pos rfl] at h
    exact .inl ⟨rfl, Option.map_eq_some_iff.mp h⟩
  · rw [if_neg hrp] at h
    exact .inr ⟨Ne.symm hrp, h⟩

theorem world_update (f : Node α → Node α) : (n.update r f).world = n.world :=
  List.length_modify ..

theorem mem_peers : p ∈ n.peers r ↔ p ≠ r ∧ p < n.world := by
  rw [peers, List.mem_filter, List.mem_range, decide_eq_true_eq, and_comm]

theorem nodup_peers : (n.peers r).Nodup := List.nodup_range.filter _

theorem lt_world (h : n.nodes[r]? = some node) : r < n.world :=
  (List.getElem?_eq_some_iff.mp h).1

theorem exists_node (h : r < n.world) : ∃ node, n.nodes[r]? = some node :=
  ⟨_, List.getElem?_eq_getElem h⟩

/-- Only the value of an update at the node counts. -/
theorem update_eq {f : Node α → Node α} (h : n.nodes[r]? = some node) {node' : Node α}
    (hf : f node = node') : n.update r f = n.update r fun _ => node' := by
  refine congrArg Network.mk (List.ext_getElem? fun p => ?_)
  have hl := nodes_update (n := n) (r := r) (p := p) f
  have hr := nodes_update (n := n) (r := r) (p := p) fun _ => node'
  rw [update] at hl hr
  rw [hl, hr]
  by_cases hp : r = p
  · subst hp
    rw [if_pos rfl, if_pos rfl, h, Option.map_some, Option.map_some, hf]
  · rw [if_neg hp, if_neg hp]

theorem update_self (h : n.nodes[r]? = some node) : n.update r (fun _ => node) = n := by
  refine congrArg Network.mk (List.ext_getElem? fun p => ?_)
  rw [List.getElem?_modify]
  by_cases hp : r = p
  · subst hp
    simp [h]
  · simp [hp]

theorem update_of_none (h : n.nodes[r]? = none) (f : Node α → Node α) : n.update r f = n := by
  refine congrArg Network.mk (List.ext_getElem? fun p => ?_)
  rw [List.getElem?_modify]
  by_cases hp : r = p
  · subst hp
    simp [h]
  · simp [hp]

/-- No rank is gone that has not come back from its `k`-th barrier. -/
def Staffed (n : Network α) (k : Nat) : Prop :=
  ∀ (p : Nat) (node : Node α), n.nodes[p]? = some node → node.present = false → node.Returned k

theorem accepts_eq_false (h : n.accepts p = false) (hp : p < n.world) :
    ∃ node, n.nodes[p]? = some node ∧ node.present = false := by
  obtain ⟨node, hn⟩ := exists_node hp
  refine ⟨node, hn, ?_⟩
  simpa [accepts, hn] using h

/-! ### Turns -/

/-- What becomes of the network when a rank takes its turn. -/
inductive Turn (n : Network α) (r : Nat) (node : Node α) : Network α → Prop where
  | finish {a : α} (h : node.activity = .computing (.done a)) :
      Turn n r node (n.update r fun _ => { node with activity := .finished a })
  | start {vote : Bool} {next : Except CommError Bool → RankProgram α}
      (h : node.activity = .computing (.barrier vote next)) :
      Turn n r node (n.update r fun _ =>
        { node with activity := .sending vote (n.peers r) next, round := node.round + 1 })
  | send {ok : Bool} {peer : Nat} {peers : List Nat} {next : Except CommError Bool → RankProgram α}
      (h : node.activity = .sending ok (peer :: peers) next) (accepts : n.accepts peer = true) :
      Turn n r node ((n.deliver peer ⟨node.round, ok⟩).update r fun node =>
        { node with activity := .sending ok peers next })
  | sent {ok : Bool} {next : Except CommError Bool → RankProgram α}
      (h : node.activity = .sending ok [] next) :
      Turn n r node (n.update r fun _ => { node with activity := .sorting ok next })
  | sort {ok : Bool} {next : Except CommError Bool → RankProgram α}
      (h : node.activity = .sorting ok next) :
      Turn n r node (n.update r fun _ =>
        { node with
          activity := .hearing
            (ok && (node.early.filter fun v => v.round = node.round).all Vote.ok)
            (node.early.filter fun v => v.round = node.round).length next
          early := node.early.filter fun v => v.round ≠ node.round })
  | hear {ok : Bool} {heard : Nat} {next : Except CommError Bool → RankProgram α} {vote : Vote}
      {inbox : List Vote} (h : node.activity = .hearing ok heard next)
      (hi : node.inbox = vote :: inbox) (hv : vote.round = node.round) :
      Turn n r node (n.update r fun _ =>
        { node with activity := .hearing (ok && vote.ok) (heard + 1) next, inbox })
  | keep {ok : Bool} {heard : Nat} {next : Except CommError Bool → RankProgram α} {vote : Vote}
      {inbox : List Vote} (h : node.activity = .hearing ok heard next)
      (hi : node.inbox = vote :: inbox) (hv : vote.round ≠ node.round) :
      Turn n r node (n.update r fun _ => { node with inbox, early := node.early ++ [vote] })
  | resume {answer : Except CommError Bool} {next : Except CommError Bool → RankProgram α}
      (h : n.answer? r = some answer) (hn : node.activity.next? = some next) :
      Turn n r node (n.update r fun _ => { node with activity := .computing (next answer) })
  | wait (h : node.activity.inside = true → ∃ ok heard next,
        node.activity = .hearing ok heard next ∧ node.inbox = [] ∧ heard < (n.peers r).length) :
      Turn n r node n

theorem act_of_gone (h : n.nodes[r]? = some node) (hp : node.present = false) : n.act r = n := by
  simp [act, h, hp]

theorem act_of_none (h : n.nodes[r]? = none) : n.act r = n := by
  simp [act, h]

/-- Who gets an answer is there and inside of a barrier. -/
theorem next?_of_answer? {answer : Except CommError Bool} (h : n.nodes[r]? = some node)
    (ha : n.answer? r = some answer) :
    node.present = true ∧ ∃ next, node.activity.next? = some next := by
  obtain ⟨present, activity, round, inbox, early⟩ := node
  simp only [answer?, h] at ha
  cases present with
  | false => cases ha
  | true => cases activity <;> first | exact ⟨rfl, _, rfl⟩ | cases ha

/-- An answer that is not an error tells that all peers have been heard. -/
theorem of_answer?_ok {v : Bool} (ha : n.answer? r = some (.ok v)) :
    ∃ (node : Node α) (heard : Nat) (next : _), n.nodes[r]? = some node ∧
      node.activity = .hearing v heard next ∧ (n.peers r).length ≤ heard := by
  rw [answer?] at ha
  split at ha
  · cases ha
  · next node h =>
    split at ha
    · cases ha
    · split at ha
      · split at ha <;> cases ha
      · next ok heard next hactivity =>
        split at ha
        · next hl =>
          cases ha
          exact ⟨node, heard, next, h, hactivity, hl⟩
        · split at ha <;> cases ha
      · cases ha

/-- An error tells that a peer is gone that has not been sent the vote, or that all peers are gone
before they have been heard. -/
theorem of_answer?_error {e : CommError} (ha : n.answer? r = some (.error e)) :
    ∃ node : Node α, n.nodes[r]? = some node ∧
      ((∃ ok peer peers next, node.activity = .sending ok (peer :: peers) next ∧
          n.accepts peer = false) ∨
        ∃ ok heard next, node.activity = .hearing ok heard next ∧ heard < (n.peers r).length ∧
          node.inbox = [] ∧ ∀ p ∈ n.peers r, n.accepts p = false) := by
  rw [answer?] at ha
  split at ha
  · cases ha
  · next node h =>
    refine ⟨node, h, ?_⟩
    split at ha
    · cases ha
    · split at ha
      · next ok peer peers next hactivity =>
        split at ha
        · cases ha
        · next haccepts =>
          exact .inl ⟨ok, peer, peers, next, hactivity, Bool.not_eq_true _ ▸ haccepts⟩
      · next ok heard next hactivity =>
        split at ha
        · cases ha
        · next hl =>
          split at ha
          · next hgone =>
            rw [Bool.and_eq_true, List.isEmpty_iff, List.all_eq_true] at hgone
            exact .inr ⟨ok, heard, next, hactivity, Nat.lt_of_not_le hl, hgone.1,
              fun p hp => by simpa using hgone.2 p hp⟩
          · cases ha
      · cases ha

/-- **The step of a rank that is there is a turn.** -/
theorem turn_of_act (h : n.nodes[r]? = some node) (hp : node.present = true) :
    n.Turn r node (n.act r) := by
  rw [act, h]
  simp only [hp, Bool.not_true, Bool.false_eq_true, if_false]
  cases ha : n.answer? r with
  | some answer =>
      obtain ⟨-, next, hn⟩ := next?_of_answer? h ha
      simp only
      have hresume : node.resume answer = { node with activity := .computing (next answer) } := by
        rw [Node.resume, hn]
      rw [update_eq h hresume]
      exact .resume ha hn
  | none =>
      rcases hactivity : node.activity with program | ⟨ok, peers, next⟩ | ⟨ok, next⟩ |
        ⟨ok, heard, next⟩ | a
      · simp only
        cases program with
        | done a =>
            rw [update_eq h (Node.advance_done hactivity)]
            exact .finish hactivity
        | barrier vote next =>
            rw [update_eq h (Node.advance_barrier hactivity)]
            exact .start hactivity
      · cases peers with
        | nil =>
            simp only
            rw [update_eq h (Node.advance_sent hactivity)]
            exact .sent hactivity
        | cons peer peers =>
            have haccepts : n.accepts peer = true := by
              by_contra hnot
              simp [answer?, h, hp, hactivity, hnot] at ha
            exact .send hactivity haccepts
      · simp only
        rw [update_eq h (Node.advance_sorting hactivity)]
        exact .sort hactivity
      · simp only
        cases hinbox : node.inbox with
        | nil =>
            have hheard : heard < (n.peers r).length := by
              by_contra hnot
              simp [answer?, h, hp, hactivity, Nat.le_of_not_lt hnot] at ha
            rw [update_eq h (Node.advance_waiting hactivity hinbox), update_self h]
            exact .wait fun _ => ⟨ok, heard, next, hactivity, hinbox, hheard⟩
        | cons vote inbox =>
            rw [update_eq h (Node.advance_hearing hactivity hinbox)]
            by_cases hv : vote.round = node.round
            · rw [if_pos hv]
              exact .hear hactivity hinbox hv
            · rw [if_neg hv]
              exact .keep hactivity hinbox hv
      · simp only
        rw [update_eq h (Node.advance_finished hactivity), update_self h]
        exact .wait fun hinside => by rw [hactivity] at hinside; cases hinside

/-- Who is inside of a barrier and gets nowhere has nothing to hear, but not heard everyone. -/
theorem of_act_eq_self (h : n.nodes[r]? = some node) (hp : node.present = true)
    (hinside : node.activity.inside = true) (hact : n.act r = n) : ∃ ok heard next,
      node.activity = .hearing ok heard next ∧ node.inbox = [] ∧ heard < (n.peers r).length := by
  have hself : ∀ {f : Node α → Node α}, n.update r f = n → f node = node := by
    intro f hf
    have hget := nodes_update (n := n) (r := r) (p := r) f
    rw [hf, if_pos rfl, h, Option.map_some] at hget
    exact (Option.some.inj hget).symm
  have hturn := turn_of_act h hp
  generalize n.act r = n' at hact hturn
  cases hturn with
  | finish hactivity | start hactivity =>
      rw [hactivity] at hinside
      cases hinside
  | @send ok peer peers next hactivity _ =>
      have hget := nodes_update (n := n.deliver peer ⟨node.round, ok⟩) (r := r) (p := r) fun node =>
        { node with activity := .sending ok peers next }
      rw [hact, if_pos rfl, h] at hget
      obtain ⟨node', -, rfl⟩ := Option.map_eq_some_iff.mp hget.symm
      exact absurd (Activity.sending.inj hactivity).2.1 (List.cons_ne_self _ _).symm
  | sent hactivity =>
      have hsame := congrArg Node.activity (hself hact)
      rw [hactivity] at hsame
      cases hsame
  | sort hactivity =>
      have hsame := congrArg Node.activity (hself hact)
      rw [hactivity] at hsame
      cases hsame
  | hear hactivity hinbox _ =>
      have hsame := congrArg Node.inbox (hself hact)
      rw [hinbox] at hsame
      exact absurd hsame (List.cons_ne_self _ _).symm
  | keep hactivity hinbox _ =>
      have hsame := congrArg Node.inbox (hself hact)
      rw [hinbox] at hsame
      exact absurd hsame (List.cons_ne_self _ _).symm
  | resume _ hn =>
      have hsame := congrArg Node.activity (hself hact)
      rw [← hsame] at hinside
      cases hinside
  | wait hwait => exact hwait hinside

/-! ### Moves -/

/-- What may happen to the network: a rank takes its turn or goes away, or votes that wait for a
rank overtake each other. -/
inductive Move (n : Network α) : Network α → Prop where
  | act (rank : Nat) : Move n (n.act rank)
  | drop (rank : Nat) : Move n (n.drop rank)
  | shuffle (rank : Nat) {node : Node α} {inbox : List Vote} (h : n.nodes[rank]? = some node)
      (order : inbox.Perm node.inbox) : Move n (n.update rank fun node => { node with inbox })

/-- What may come of given programs. -/
def Reached (programs : List (RankProgram α)) : Network α → Prop :=
  Relation.ReflTransGen Move (ofPrograms programs)

/-- A schedule is made of moves. -/
theorem follow_reached {programs : List (RankProgram α)} (h : Reached programs n)
    (schedule : List Event) : Reached programs (n.follow schedule) := by
  induction schedule generalizing n with
  | nil => exact h
  | cons event schedule ih =>
      refine ih (h.tail ?_)
      cases event with
      | act rank => exact .act rank
      | drop rank => exact .drop rank

end Network

end ParticleSim
