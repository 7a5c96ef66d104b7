import ParticleSim.Proofs.Lists
import ParticleSim.Proofs.Rank.Turns
import Mathlib.Data.List.Perm.Subperm

/-!
# Ranks — Books

A vote does not say who has cast it.  A ledger does: it has the votes that a rank was sent, each
with its peer and its round, as those heard, those set aside and those that wait (`Ledger`).  The
books of a network are kept when every vote on them is there once and has been sent, and, as long as
nobody leaves before coming back from the `k`-th barrier, every vote up to round `k` that has been
sent is on them and whoever has come back from a barrier has heard everyone (`Network.Booked`).

* `Network.Booked.of_answer?_ok`: who gets an answer has heard everyone, and the answer is the
  conjunction.
* `Network.Booked.lt_round_of_error`: no barrier fails up to the `k`-th one.
-/

namespace ParticleSim

/-! ### Ledgers -/

/-- The votes that a rank was sent, by peer and round. -/
structure Ledger where
  heard : List (Nat × Nat)
  early : List (Nat × Nat)
  inbox : List (Nat × Nat)

namespace Ledger

/-- A rank that was sent nothing. -/
def empty : Ledger := ⟨[], [], []⟩

/-- Every vote that the rank was sent. -/
def delivered (l : Ledger) : List (Nat × Nat) := l.heard ++ (l.early ++ l.inbox)

/-- The votes of a round that the rank has heard. -/
def heardIn (l : Ledger) (k : Nat) : List (Nat × Nat) := l.heard.filter fun e => e.2 = k

variable {l : Ledger} {e : Nat × Nat} {k : Nat}

theorem mem_heardIn : e ∈ l.heardIn k ↔ e ∈ l.heard ∧ e.2 = k := by
  rw [heardIn, List.mem_filter, decide_eq_true_eq]

theorem mem_delivered : e ∈ l.delivered ↔ e ∈ l.heard ∨ e ∈ l.early ∨ e ∈ l.inbox := by
  rw [delivered, List.mem_append, List.mem_append]

theorem heardIn_eq_nil (h : ∀ e ∈ l.heard, e.2 < k) : l.heardIn k = [] := by
  rw [heardIn, List.filter_eq_nil_iff]
  intro e he
  simpa using Nat.ne_of_lt (h e he)

/-- No peer has two votes of one round. -/
theorem nodup_peers {l : List (Nat × Nat)} (h : l.Nodup) (k : Nat) :
    ((l.filter fun e => e.2 = k).map Prod.fst).Nodup := by
  refine List.Nodup.map_on (fun e he e' he' hfst => ?_) (h.filter _)
  have hround := decide_eq_true_eq.mp (List.mem_filter.mp he).2
  have hround' := decide_eq_true_eq.mp (List.mem_filter.mp he').2
  exact Prod.ext hfst (hround.trans hround'.symm)

/-- Hear the votes of a round that were set aside. -/
def sort (l : Ledger) (k : Nat) : Ledger :=
  ⟨l.heard ++ l.early.filter (fun e => e.2 = k), l.early.filter (fun e => e.2 ≠ k), l.inbox⟩

/-- Hear the vote that waits first. -/
def hear (l : Ledger) : Ledger := ⟨l.heard ++ l.inbox.take 1, l.early, l.inbox.tail⟩

/-- Set the vote aside that waits first. -/
def keep (l : Ledger) : Ledger := ⟨l.heard, l.early ++ l.inbox.take 1, l.inbox.tail⟩

/-- Enter a vote that waits. -/
def enter (l : Ledger) (e : Nat × Nat) : Ledger := ⟨l.heard, l.early, l.inbox ++ [e]⟩

theorem delivered_sort (l : Ledger) (k : Nat) : (l.sort k).delivered.Perm l.delivered := by
  have hearly : (l.early.filter (fun e => e.2 = k) ++
      l.early.filter fun e => e.2 ≠ k).Perm l.early := by
    simpa using List.filter_append_perm (fun e : Nat × Nat => decide (e.2 = k)) l.early
  simp only [delivered, sort, List.append_assoc]
  refine List.Perm.append_left l.heard ?_
  rw [← List.append_assoc]
  exact hearly.append_right l.inbox

theorem delivered_hear (l : Ledger) : l.hear.delivered.Perm l.delivered := by
  obtain ⟨heard, early, _ | ⟨e, inbox⟩⟩ := l
  · simp [hear, delivered]
  · simp only [hear, delivered, List.take_succ_cons, List.take_zero, List.tail_cons,
      List.append_assoc, List.singleton_append]
    exact (List.perm_middle.symm).append_left heard

theorem delivered_keep (l : Ledger) : l.keep.delivered = l.delivered := by
  obtain ⟨heard, early, _ | ⟨e, inbox⟩⟩ := l <;> simp [keep, delivered]

theorem delivered_enter (l : Ledger) (e : Nat × Nat) :
    (l.enter e).delivered = l.delivered ++ [e] := by
  simp only [enter, delivered, List.append_assoc]

/-- What is heard of a round then is what was heard and what was set aside. -/
theorem heardIn_sort (l : Ledger) (k : Nat) :
    (l.sort k).heardIn k = l.heardIn k ++ l.early.filter fun e => e.2 = k := by
  rw [heardIn, sort, List.filter_append, List.filter_filter]
  simp [heardIn]

end Ledger

/-- The vote of a peer in a round. -/
def Vote.of (votes : Nat → Nat → Bool) (e : Nat × Nat) : Vote := ⟨e.2, votes e.1 e.2⟩

/-- What a rank has heard in its round is what its ledger says, and it will cast the votes that are
its own. -/
def Activity.Tallied {α : Type} (votes : Nat → Nat → Bool) (rank round : Nat) (l : Ledger) :
    Activity α → Prop
  | computing p => p.Casts (votes rank) (round + 1)
  | sending ok _ next | sorting ok next =>
    ok = votes rank round ∧ l.heardIn round = [] ∧
      ∀ answer, (next answer).Casts (votes rank) (round + 1)
  | hearing ok heard next =>
    heard = (l.heardIn round).length ∧
      ok = (votes rank round && (l.heardIn round).all fun e => votes e.1 e.2) ∧
      (∀ e ∈ l.early, e.2 ≠ round) ∧ ∀ answer, (next answer).Casts (votes rank) (round + 1)
  | finished _ => True

theorem Activity.Tallied.heard_eq {α : Type} {votes : Nat → Nat → Bool} {rank round : Nat}
    {l : Ledger} {a : Activity α} (h : a.Tallied votes rank round l) (hinside : a.inside = true) :
    a.heard = (l.heardIn round).length := by
  cases a with
  | sending ok peers next | sorting ok next =>
      rw [h.2.1]
      rfl
  | hearing ok heard next => exact h.1
  | computing _ | finished _ => cases hinside

/-- The ledger of a node is kept. -/
structure Node.Booked {α : Type} (votes : Nat → Nat → Bool) (world rank : Nat) (l : Ledger)
    (node : Node α) : Prop where
  early : node.early = l.early.map (Vote.of votes)
  inbox : node.inbox = l.inbox.map (Vote.of votes)
  nodup : l.delivered.Nodup
  past : ∀ e ∈ l.heard, e.2 ≤ node.round
  tallied : node.activity.Tallied votes rank node.round l
  started : node.activity.inside = true → 1 ≤ node.round
  remaining : node.activity.remaining.Nodup
  peers : ∀ p ∈ node.activity.remaining, p ≠ rank ∧ p < world

/-- The books of a network, with what they say of the first `k` rounds. -/
structure Network.Booked {α : Type} (votes : Nat → Nat → Bool) (k : Nat) (n : Network α)
    (ledger : Nat → Ledger) : Prop where
  node : ∀ (r : Nat) (node : Node α), n.nodes[r]? = some node →
    node.Booked votes n.world r (ledger r)
  sent : ∀ r, ∀ e ∈ (ledger r).delivered,
    e.1 ≠ r ∧ ∃ peer : Node α, n.nodes[e.1]? = some peer ∧ peer.Sent e.2 r
  complete : n.Staffed k → ∀ r p (peer : Node α) j, r < n.world → p ≠ r →
    n.nodes[p]? = some peer → j ≤ k → peer.Sent j r → (p, j) ∈ (ledger r).delivered
  returned : n.Staffed k → ∀ r (node : Node α) p j, n.nodes[r]? = some node → node.Returned j →
    1 ≤ j → j ≤ k → p < n.world → p ≠ r → (p, j) ∈ (ledger r).heard

namespace Network

variable {α : Type} {votes : Nat → Nat → Bool} {k r : Nat} {n n' : Network α}
  {ledger : Nat → Ledger} {node : Node α}

/-! ### Answers -/

/-- Who has heard as many votes as there are peers has heard each of them. -/
theorem Booked.heard_all (h : n.Booked votes k ledger) (hr : n.nodes[r]? = some node)
    (hl : (n.peers r).length ≤ ((ledger r).heardIn node.round).length) {p : Nat}
    (hp : p ∈ n.peers r) : (p, node.round) ∈ (ledger r).heard := by
  have hn : (((ledger r).heardIn node.round).map Prod.fst).Nodup :=
    Ledger.nodup_peers (List.nodup_append.mp (h.node r node hr).nodup).1 node.round
  have hsub : ((ledger r).heardIn node.round).map Prod.fst ⊆ n.peers r := by
    intro q hq
    obtain ⟨e, he, rfl⟩ := List.mem_map.mp hq
    obtain ⟨hne, peer, hpeer, -⟩ :=
      h.sent r e (Ledger.mem_delivered.mpr (.inl (Ledger.mem_heardIn.mp he).1))
    exact mem_peers.mpr ⟨hne, lt_world hpeer⟩
  -- as many different peers as there are are all of them
  have hperm := (hn.subperm hsub).perm_of_length_le (by rwa [List.length_map])
  obtain ⟨e, he, rfl⟩ := List.mem_map.mp (hperm.mem_iff.mpr hp)
  obtain ⟨hheard, hround⟩ := Ledger.mem_heardIn.mp he
  exact hround ▸ hheard

/-- **Who gets an answer has heard everyone**, and the answer is in favour when all votes are. -/
theorem Booked.of_answer?_ok (h : n.Booked votes k ledger) {v : Bool}
    (ha : n.answer? r = some (.ok v)) :
    ∃ node : Node α, n.nodes[r]? = some node ∧
      (∀ p ∈ n.peers r, (p, node.round) ∈ (ledger r).heard) ∧
      (v = true ↔ ∀ p < n.world, votes p node.round = true) := by
  obtain ⟨node, heard, next, hr, hactivity, hl⟩ := Network.of_answer?_ok ha
  have htallied := (h.node r node hr).tallied
  rw [hactivity] at htallied
  obtain ⟨rfl, rfl, -, -⟩ := htallied
  have hall := fun {p} => h.heard_all hr hl (p := p)
  refine ⟨node, hr, fun p hp => hall hp, ?_⟩
  rw [Bool.and_eq_true, List.all_eq_true]
  constructor
  · rintro ⟨hown, hpeers⟩ p hp
    by_cases hpr : p = r
    · rwa [hpr]
    · exact hpeers _ (Ledger.mem_heardIn.mpr ⟨hall (mem_peers.mpr ⟨hpr, hp⟩), rfl⟩)
  · intro hvotes
    refine ⟨hvotes r (lt_world hr), fun e he => ?_⟩
    obtain ⟨hheard, hround⟩ := Ledger.mem_heardIn.mp he
    obtain ⟨-, peer, hpeer, -⟩ := h.sent r e (Ledger.mem_delivered.mpr (.inl hheard))
    rw [hround]
    exact hvotes e.1 (lt_world hpeer)

/-- **No barrier up to the `k`-th one fails** when nobody leaves before. -/
theorem Booked.lt_round_of_error (h : n.Booked votes k ledger) (hs : n.Staffed k) {e : CommError}
    (ha : n.answer? r = some (.error e)) :
    ∃ node : Node α, n.nodes[r]? = some node ∧ k < node.round := by
  obtain ⟨node, hr, hcase⟩ := of_answer?_error ha
  refine ⟨node, hr, ?_⟩
  by_contra hk
  have hk : node.round ≤ k := Nat.le_of_not_lt hk
  have hnode := h.node r node hr
  -- a peer that is gone has come back from this barrier, and so has heard this rank and been heard
  -- by it
  have hreturned : ∀ p, p < n.world → n.accepts p = false →
      ∃ peer : Node α, n.nodes[p]? = some peer ∧ peer.Returned node.round := by
    intro p hp haccepts
    obtain ⟨peer, hpeer, hgone⟩ := accepts_eq_false haccepts hp
    exact ⟨peer, hpeer, (hs p peer hpeer hgone).of_le hk⟩
  rcases hcase with ⟨ok, p, peers, next, hactivity, haccepts⟩ |
    ⟨ok, heard, next, hactivity, hl, hinbox, hgone⟩
  · -- it has heard the vote that is only now to be sent
    have hround : 1 ≤ node.round := hnode.started (by rw [hactivity]; rfl)
    have howed : p ∈ node.activity.remaining := by
      rw [hactivity]
      exact List.mem_cons_self
    obtain ⟨hpr, hp⟩ := hnode.peers p howed
    obtain ⟨peer, hpeer, hret⟩ := hreturned p hp haccepts
    have hheard := h.returned hs p peer r node.round hpeer hret hround hk (lt_world hr) hpr.symm
    obtain ⟨-, node', hr', hsent⟩ := h.sent p _ (Ledger.mem_delivered.mpr (.inl hheard))
    obtain rfl : node = node' := Option.some.inj (hr.symm.trans hr')
    exact hsent.2.2 ⟨rfl, howed⟩
  · -- all peers have sent their votes, and there is nowhere else for these to be than with the heard
    have hround : 1 ≤ node.round := hnode.started (by rw [hactivity]; rfl)
    have htallied := hnode.tallied
    rw [hactivity] at htallied
    obtain ⟨rfl, -, hearly, -⟩ := htallied
    have hempty : (ledger r).inbox = [] := by
      rw [← List.map_eq_nil_iff, ← hnode.inbox, hinbox]
    have hheard : (n.peers r).map (·, node.round) ⊆ (ledger r).heardIn node.round := by
      intro e he
      obtain ⟨p, hp, rfl⟩ := List.mem_map.mp he
      obtain ⟨hpr, hpw⟩ := mem_peers.mp hp
      obtain ⟨peer, hpeer, hret⟩ := hreturned p hpw (hgone p hp)
      have hdelivered := h.complete hs r p peer node.round (lt_world hr) hpr hpeer hk
        (hret.sent hround)
      rcases Ledger.mem_delivered.mp hdelivered with hm | hm | hm
      · exact Ledger.mem_heardIn.mpr ⟨hm, rfl⟩
      · exact absurd rfl (hearly _ hm)
      · rw [hempty] at hm
        cases hm
    have hn : ((n.peers r).map (·, node.round)).Nodup :=
      nodup_peers.map fun p q hpq => (Prod.mk.inj hpq).1
    have hle := (hn.subperm hheard).length_le
    rw [List.length_map] at hle
    omega

end Network

end ParticleSim
