import ParticleSim.Proofs.Rank.Progress

/-!
# Ranks — Agreement

What the books say of the ranks themselves, whatever turns they have taken, whoever has gone away
and however the votes have overtaken each other (`Network.Agreed`, `Network.Reached.agreed`).
-/

namespace ParticleSim

namespace Network

variable {α : Type} {votes : Nat → Nat → Bool} {k r : Nat} {n : Network α} {ledger : Nat → Ledger}
  {node : Node α}

/-! ### Rounds -/

/-- Who is heard in a round, or waits to be, has come to it. -/
theorem Booked.round_le (h : n.Booked votes k ledger) {e : Nat × Nat}
    (he : e ∈ (ledger r).delivered) {peer : Node α} (hp : n.nodes[e.1]? = some peer) :
    e.2 ≤ peer.round := by
  obtain ⟨-, peer', hp', hsent⟩ := h.sent r e he
  obtain rfl : peer = peer' := Option.some.inj (hp.symm.trans hp')
  exact hsent.2.1

/-- A vote that waits is of the round of the rank that it waits for, or of the next one. -/
theorem Booked.round_of_waiting (h : n.Booked votes k ledger) (hr : n.nodes[r]? = some node)
    (hs : n.Staffed k) {p : Nat} (he : (p, k) ∈ (ledger r).early ++ (ledger r).inbox) :
    k = node.round ∨ k = node.round + 1 := by
  have hnode := h.node r node hr
  have hdelivered : (p, k) ∈ (ledger r).delivered := List.mem_append_right _ he
  obtain ⟨hpr, peer, hp, hsent⟩ := h.sent r _ hdelivered
  -- the rank has not come back from round `k`, or it would have heard the vote
  have hlower : node.round ≤ k := by
    by_contra hlt
    have hheard := h.returned hs r node p k hr (.inl (Nat.lt_of_not_le hlt)) hsent.1 (Nat.le_refl k)
      (lt_world hp) hpr
    exact List.disjoint_of_nodup_append hnode.nodup hheard he
  -- the peer has come back from the round before, and so has heard the rank in it
  have hupper : k ≤ node.round + 1 := by
    by_contra hlt
    have hk : 1 ≤ k - 1 ∧ k - 1 ≤ k ∧ k - 1 < k ∧ node.round < k - 1 := by omega
    have hreturned : peer.Returned (k - 1) := .inl (Nat.lt_of_lt_of_le hk.2.2.1 hsent.2.1)
    have hheard := h.returned hs p peer r (k - 1) hp hreturned hk.1 hk.2.1 (lt_world hr) hpr.symm
    have hle := h.round_le (Ledger.mem_delivered.mpr (.inl hheard)) hr
    exact absurd hk.2.2.2 (Nat.not_lt_of_le hle)
  omega

/-- What ranks can rely on when they meet at barriers where they cast given votes. -/
structure Agreed (votes : Nat → Nat → Bool) (n : Network α) : Prop where
  /-- Who comes back from a barrier without an error does so after everyone has come to it, and the
  answer is in favour when all votes are. -/
  answer : ∀ r v, n.answer? r = some (.ok v) → ∃ node : Node α, n.nodes[r]? = some node ∧
    (∀ (p : Nat) (peer : Node α), n.nodes[p]? = some peer → node.round ≤ peer.round) ∧
    (v = true ↔ ∀ p < n.world, votes p node.round = true)
  /-- What waits for a rank are votes that other ranks have sent to it, one of a peer in a round at
  most. -/
  once : ∀ (r : Nat) (node : Node α), n.nodes[r]? = some node → ∃ early inbox : List (Nat × Nat),
    node.early = early.map (Vote.of votes) ∧ node.inbox = inbox.map (Vote.of votes) ∧
    (early ++ inbox).Nodup ∧ ∀ e ∈ early ++ inbox,
      e.1 ≠ r ∧ ∃ peer : Node α, n.nodes[e.1]? = some peer ∧ peer.Sent e.2 r
  /-- A vote that waits is of the round of the rank that it waits for, or of the next one. -/
  rounds : ∀ (r : Nat) (node : Node α), n.nodes[r]? = some node → ∀ vote ∈ node.early ++ node.inbox,
    n.Staffed vote.round → vote.round = node.round ∨ vote.round = node.round + 1
  /-- When everyone has come to a barrier, what a rank inside of it has heard, what waits for it and
  what it is owed are as many votes as it has peers. -/
  count : ∀ k, n.Staffed k →
    (∀ (p : Nat) (peer : Node α), n.nodes[p]? = some peer → k ≤ peer.round) →
    ∀ (r : Nat) (node : Node α), n.nodes[r]? = some node → node.round = k →
      node.activity.inside = true →
      node.activity.heard + node.early.countP (·.round = k) + node.inbox.countP (·.round = k) +
        (n.owing r k).length = n.world - 1
  /-- Nor does anyone wait for good: there are turns after which all have come back. -/
  returning : ∀ k, n.Staffed k →
    (∀ (p : Nat) (peer : Node α), n.nodes[p]? = some peer → k ≤ peer.round) →
    ∃ ranks : List Nat, ∀ (p : Nat) (node : Node α),
      (n.follow (ranks.map Event.act)).nodes[p]? = some node → node.Returned k
  /-- Nobody fails at a barrier that all who left have come back from. -/
  leaving : ∀ k, n.Staffed k → ∀ r e, n.answer? r = some (.error e) →
    ∃ node : Node α, n.nodes[r]? = some node ∧ k < node.round

/-! ### Whatever is reached -/

section Reached

variable {programs : List (RankProgram α)}

theorem Move.world_eq {n' : Network α} (h : n.Move n') : n'.world = n.world := by
  cases h with
  | act rank =>
      cases hr : n.nodes[rank]? with
      | none => rw [act_of_none hr]
      | some node =>
          cases hp : node.present with
          | false => rw [act_of_gone hr hp]
          | true =>
              have hturn := turn_of_act hr hp
              generalize n.act rank = n' at hturn
              cases hturn with
              | send _ _ => exact (world_update _).trans (world_update _)
              | wait _ => rfl
              | _ => exact world_update _
  | drop rank => exact world_update _
  | shuffle rank _ _ => exact world_update _

/-- Ranks neither come nor vanish. -/
theorem Reached.world_eq (h : Reached programs n) : n.world = programs.length := by
  induction h with
  | refl => exact List.length_map _
  | tail _ hmove ih => exact hmove.world_eq.trans ih

/-- **The ranks agree at every barrier**, for every number of ranks and whatever they vote. -/
theorem Reached.agreed (hcasts : ∀ (p : Nat) (program : RankProgram α),
      programs[p]? = some program → program.Casts (votes p) 1) (h : Reached programs n) :
    n.world = programs.length ∧ n.Agreed votes := by
  refine ⟨h.world_eq, fun r v hanswer => ?_, fun r node hr => ?_, fun r node hr vote hvote hs => ?_,
    fun k hs hall r node hr hround hinside => ?_, fun k hs hall => h.returning hcasts hs hall,
    fun k hs r e hanswer => ?_⟩
  · obtain ⟨ledger, hbooked⟩ := h.booked hcasts 0
    obtain ⟨node, hr, hheard, hv⟩ := hbooked.of_answer?_ok hanswer
    refine ⟨node, hr, fun p peer hp => ?_, hv⟩
    by_cases hpr : p = r
    · subst hpr
      obtain rfl : node = peer := Option.some.inj (hr.symm.trans hp)
      exact Nat.le_refl _
    · have hdelivered := hheard p (mem_peers.mpr ⟨hpr, lt_world hp⟩)
      exact hbooked.round_le (Ledger.mem_delivered.mpr (.inl hdelivered)) hp
  · obtain ⟨ledger, hbooked⟩ := h.booked hcasts 0
    have hnode := hbooked.node r node hr
    exact ⟨_, _, hnode.early, hnode.inbox, (List.nodup_append.mp hnode.nodup).2.1,
      fun e he => hbooked.sent r e (List.mem_append_right _ he)⟩
  · obtain ⟨ledger, hbooked⟩ := h.booked hcasts vote.round
    have hnode := hbooked.node r node hr
    rw [hnode.early, hnode.inbox, ← List.map_append] at hvote
    obtain ⟨e, he, rfl⟩ := List.mem_map.mp hvote
    exact hbooked.round_of_waiting hr hs he
  · obtain ⟨ledger, hbooked⟩ := h.booked hcasts k
    exact hbooked.count hr hround hinside hs hall
  · obtain ⟨ledger, hbooked⟩ := h.booked hcasts k
    exact hbooked.lt_round_of_error hs hanswer

/-- The last of three ranks is against it.  The first is ahead, so that its second vote is set aside
by the second rank, which is about to come back from its first barrier. -/
theorem Reached.agreed_castAll : ∃ n,
    Reached ([[true, true], [true, false], [false, true]].map RankProgram.castAll) n ∧
      (n.nodes[1]?).map Node.early = some [⟨2, true⟩] ∧ n.answer? 1 = some (.ok false) ∧
      n.Agreed (RankProgram.votesOf [[true, true], [true, false], [false, true]]) :=
  have hreached := follow_reached .refl
    ([0, 0, 0, 0, 0, 1, 1, 1, 1, 1, 2, 2, 0, 0, 0, 0, 0, 1, 1, 2, 1].map Event.act)
  ⟨_, hreached, by decide +kernel, by decide +kernel,
    (Reached.agreed (RankProgram.casts_votesOf _) hreached).2⟩

end Reached

end Network

end ParticleSim
