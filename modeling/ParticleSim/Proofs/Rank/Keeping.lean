import ParticleSim.Proofs.Rank.Books
import Mathlib.Logic.Function.Basic

/-!
# Ranks — Keeping the books

Whatever is reached, its books can be kept (`Network.Reached.booked`).  Most moves are unnoticed by
other ranks: the node that makes one is sent nothing, and if it counts as having sent or returned
more than before, that is either nothing new or of a barrier that the books promise nothing about
(`Network.Quiet`, `Network.Booked.update`).  What is left is a vote on its way, which is entered for
the peer that it is sent to (`Network.Booked.send`).
-/

namespace ParticleSim

namespace Network

variable {α : Type} {votes : Nat → Nat → Bool} {k r : Nat} {n n' : Network α}
  {ledger : Nat → Ledger} {node : Node α}

/-! ### One node -/

/-- What one node may do unnoticed: it is sent nothing, and in the first `k` rounds it sends nothing
and comes back from no barrier before it has heard everyone. -/
structure Quiet (n : Network α) (k r : Nat) (l l' : Ledger) (node node' : Node α) : Prop where
  delivered : l'.delivered.Perm l.delivered
  heard : l.heard ⊆ l'.heard
  sent : ∀ j q, node.Sent j q → node'.Sent j q
  gone : node.present = false →
    node'.present = false ∧ ∀ j, node'.Returned j → node.Returned j
  unsent : n.Staffed k → ∀ j q, j ≤ k → q ∈ n.peers r → node'.Sent j q → node.Sent j q
  returned : n.Staffed k → ∀ j p, 1 ≤ j → j ≤ k → node'.Returned j → ¬ node.Returned j →
    p ∈ n.peers r → (p, j) ∈ l'.heard

/-- A node that stays at the same point of the same barrier, as far as the others see. -/
theorem Quiet.of_same {l l' : Ledger} {node' : Node α} (hd : l'.delivered.Perm l.delivered)
    (hh : l.heard ⊆ l'.heard) (hround : node'.round = node.round)
    (hremaining : node'.activity.remaining = node.activity.remaining)
    (hinside : node'.activity.inside = node.activity.inside)
    (hpresent : node.present = false → node'.present = false) : n.Quiet k r l l' node node' where
  delivered := hd
  heard := hh
  sent _ _ := (Node.sent_congr hround hremaining).mpr
  gone hgone := ⟨hpresent hgone, fun _ => (Node.returned_congr hround hinside).mp⟩
  unsent _ _ _ _ _ := (Node.sent_congr hround hremaining).mp
  returned _ _ _ _ _ hret hnot := absurd ((Node.returned_congr hround hinside).mp hret) hnot

/-- Nobody had left before a node has changed, if nobody has after. -/
theorem Quiet.staffed {l l' : Ledger} {node' : Node α} (hq : n.Quiet k r l l' node node')
    (hr : n.nodes[r]? = some node) (hs : (n.update r fun _ => node').Staffed k) : n.Staffed k := by
  intro p peer hp hpresent
  by_cases hpr : r = p
  · subst hpr
    obtain rfl : node = peer := Option.some.inj (hr.symm.trans hp)
    obtain ⟨hpresent', hreturned⟩ := hq.gone hpresent
    refine hreturned k (hs r node' ?_ hpresent')
    rw [nodes_update, if_pos rfl, hr, Option.map_some]
  · refine hs p peer ?_ hpresent
    rw [nodes_update, if_neg hpr, hp]

/-- **The books are kept** while one node does something unnoticed. -/
theorem Booked.update (h : n.Booked votes k ledger) (hr : n.nodes[r]? = some node) {l' : Ledger}
    {node' : Node α} (hnode : node'.Booked votes n.world r l')
    (hq : n.Quiet k r (ledger r) l' node node') :
    (n.update r fun _ => node').Booked votes k (Function.update ledger r l') := by
  have hget : ∀ {p peer}, (n.update r fun _ => node').nodes[p]? = some peer →
      p = r ∧ peer = node' ∨ p ≠ r ∧ n.nodes[p]? = some peer := by
    intro p peer hp
    exact (of_nodes_update hp).imp_left fun ⟨hpr, _, _, hpeer⟩ => ⟨hpr, hpeer.symm⟩
  have hdelivered : ∀ {q e}, e ∈ (Function.update ledger r l' q).delivered ↔
      e ∈ (ledger q).delivered := by
    intro q e
    by_cases hqr : q = r
    · subst hqr
      rw [Function.update_self]
      exact hq.delivered.mem_iff
    · rw [Function.update_of_ne hqr]
  have hself : (n.update r fun _ => node').nodes[r]? = some node' := by
    rw [nodes_update, if_pos rfl, hr, Option.map_some]
  refine ⟨fun p peer hp => ?_, fun q e he => ?_, fun hs q p peer j hqw hpq hp hj hsent => ?_,
    fun hs q peer p j hq' hret hj hjk hpw hpq => ?_⟩
  · rw [world_update]
    rcases hget hp with ⟨rfl, rfl⟩ | ⟨hpr, hp⟩
    · rwa [Function.update_self]
    · rw [Function.update_of_ne hpr]
      exact h.node p peer hp
  · obtain ⟨hne, peer, hpeer, hsent⟩ := h.sent q e (hdelivered.mp he)
    refine ⟨hne, ?_⟩
    by_cases her : e.1 = r
    · rw [her] at hpeer ⊢
      obtain rfl : node = peer := Option.some.inj (hr.symm.trans hpeer)
      exact ⟨node', hself, hq.sent _ _ hsent⟩
    · refine ⟨peer, ?_, hsent⟩
      rw [nodes_update, if_neg (Ne.symm her), hpeer]
  · have hs' := hq.staffed hr hs
    rw [world_update] at hqw
    rw [hdelivered]
    rcases hget hp with ⟨rfl, rfl⟩ | ⟨-, hp⟩
    · exact h.complete hs' q p node j hqw hpq hr hj
        (hq.unsent hs' j q hj (mem_peers.mpr ⟨hpq.symm, hqw⟩) hsent)
    · exact h.complete hs' q p peer j hqw hpq hp hj hsent
  · -- a barrier that the node comes back from just now, or one that it had come back from before
    have hs' := hq.staffed hr hs
    rw [world_update] at hpw
    rcases hget hq' with ⟨rfl, rfl⟩ | ⟨hqr, hq'⟩
    · rw [Function.update_self]
      by_cases hbefore : node.Returned j
      · exact hq.heard (h.returned hs' q node p j hr hbefore hj hjk hpw hpq)
      · exact hq.returned hs' j p hj hjk hret hbefore (mem_peers.mpr ⟨hpq, hpw⟩)
    · rw [Function.update_of_ne hqr]
      exact h.returned hs' q peer p j hq' hret hj hjk hpw hpq

/-! ### A vote on its way -/

/-- With one vote on its way, that one more has been sent. -/
theorem sent_of_sending {ok : Bool} {q : Nat} {peers : List Nat}
    {next : Except CommError Bool → RankProgram α}
    (hactivity : node.activity = .sending ok (q :: peers) next) (hq : q ∉ peers)
    (hround : 1 ≤ node.round) {j x : Nat} :
    Node.Sent { node with activity := .sending ok peers next } j x ↔
      node.Sent j x ∨ j = node.round ∧ x = q := by
  simp only [Node.Sent, Node.Owes, hactivity, Activity.remaining, List.mem_cons]
  constructor
  · rintro ⟨hj, hle, hnot⟩
    by_cases hx : j = node.round ∧ x = q
    · exact .inr hx
    · refine .inl ⟨hj, hle, ?_⟩
      rintro ⟨rfl, rfl | hm⟩
      · exact hx ⟨rfl, rfl⟩
      · exact hnot ⟨rfl, hm⟩
  · rintro (⟨hj, hle, hnot⟩ | ⟨rfl, rfl⟩)
    · exact ⟨hj, hle, fun ho => hnot ⟨ho.1, .inr ho.2⟩⟩
    · exact ⟨hround, Nat.le_refl _, fun ho => hq ho.2⟩

/-- A vote on its way changes the node that sends it and the one that gets it. -/
theorem nodes_send {q : Nat} {receiver : Node α} (hqr : q ≠ r) (hr : n.nodes[r]? = some node)
    (hq : n.nodes[q]? = some receiver) (vote : Vote) (f : Node α → Node α) (p : Nat) :
    ((n.deliver q vote).update r f).nodes[p]? =
      if p = r then some (f node)
      else if p = q then some { receiver with inbox := receiver.inbox ++ [vote] }
      else n.nodes[p]? := by
  rw [nodes_update, deliver, nodes_update]
  by_cases hpr : p = r
  · subst hpr
    simp [hqr, hr]
  · by_cases hpq : p = q
    · subst hpq
      simp [hq, Ne.symm hpr, hpr]
    · simp [Ne.symm hpr, Ne.symm hpq, hpr, hpq]

/-- What the others see of a node while a vote is on its way: the sender has sent that one more, and
that is all. -/
theorem view_send {ok : Bool} {q : Nat} {receiver : Node α} {peers : List Nat}
    {next : Except CommError Bool → RankProgram α} (hqr : q ≠ r) (hr : n.nodes[r]? = some node)
    (hq : n.nodes[q]? = some receiver) (hactivity : node.activity = .sending ok (q :: peers) next)
    (hnot : q ∉ peers) (hround : 1 ≤ node.round) {p : Nat} {peer : Node α}
    (hp : n.nodes[p]? = some peer) :
    ∃ peer' : Node α, ((n.deliver q ⟨node.round, ok⟩).update r fun node =>
        { node with activity := .sending ok peers next }).nodes[p]? = some peer' ∧
      peer'.present = peer.present ∧ (∀ j, peer'.Returned j ↔ peer.Returned j) ∧
      ∀ j x, peer'.Sent j x ↔ peer.Sent j x ∨ p = r ∧ j = node.round ∧ x = q := by
  rw [nodes_send hqr hr hq]
  by_cases hpr : p = r
  · subst hpr
    obtain rfl : node = peer := Option.some.inj (hr.symm.trans hp)
    refine ⟨_, if_pos rfl, rfl, fun j => Node.returned_congr rfl (by rw [hactivity]; rfl),
      fun j x => ?_⟩
    rw [sent_of_sending hactivity hnot hround, eq_self_iff_true, true_and]
  · rw [if_neg hpr]
    by_cases hpq : p = q
    · subst hpq
      obtain rfl : receiver = peer := Option.some.inj (hq.symm.trans hp)
      refine ⟨_, if_pos rfl, rfl, fun j => Node.returned_congr rfl rfl, fun j x => ?_⟩
      rw [or_iff_left fun hx => hpr hx.1]
      exact Node.sent_congr rfl rfl
    · refine ⟨peer, (if_neg hpq).trans hp, rfl, fun j => Iff.rfl, fun j x => ?_⟩
      rw [or_iff_left fun hx => hpr hx.1]

/-- What the books say of a vote that is to be sent next. -/
theorem Booked.of_sending (h : n.Booked votes k ledger) (hr : n.nodes[r]? = some node) {ok : Bool}
    {q : Nat} {peers : List Nat} {next : Except CommError Bool → RankProgram α}
    (hactivity : node.activity = .sending ok (q :: peers) next) :
    1 ≤ node.round ∧ q ≠ r ∧ q ∉ peers ∧ (∃ receiver, n.nodes[q]? = some receiver) ∧
      (r, node.round) ∉ (ledger q).delivered := by
  have hnode := h.node r node hr
  have howed : q ∈ node.activity.remaining := by
    rw [hactivity]
    exact List.mem_cons_self
  obtain ⟨hqr, hqw⟩ := hnode.peers q howed
  have hremaining := hnode.remaining
  simp only [hactivity, Activity.remaining, List.nodup_cons] at hremaining
  refine ⟨hnode.started (by rw [hactivity]; rfl), hqr, hremaining.1, exists_node hqw, fun hm => ?_⟩
  obtain ⟨-, node', hr', hsent⟩ := h.sent q _ hm
  obtain rfl : node = node' := Option.some.inj (hr.symm.trans hr')
  exact hsent.2.2 ⟨rfl, howed⟩

/-- The vote is entered for the peer, which did not have it. -/
theorem Booked.node_send (h : n.Booked votes k ledger) (hr : n.nodes[r]? = some node) {ok : Bool}
    {q : Nat} {peers : List Nat} {next : Except CommError Bool → RankProgram α}
    (hactivity : node.activity = .sending ok (q :: peers) next) {p : Nat} {peer' : Node α}
    (hp' : ((n.deliver q ⟨node.round, ok⟩).update r fun node =>
      { node with activity := .sending ok peers next }).nodes[p]? = some peer') :
    peer'.Booked votes n.world p
      (Function.update ledger q ((ledger q).enter (r, node.round)) p) := by
  obtain ⟨hround, hqr, -, ⟨receiver, hq⟩, hnew⟩ := h.of_sending hr hactivity
  have hnode := h.node r node hr
  have htallied := hnode.tallied
  have hremaining := hnode.remaining
  have hpeers := hnode.peers
  rw [hactivity] at htallied hremaining hpeers
  rw [nodes_send hqr hr hq] at hp'
  by_cases hpr : p = r
  · subst hpr
    rw [if_pos rfl] at hp'
    cases hp'
    rw [Function.update_of_ne hqr.symm]
    exact { hnode with
      tallied := htallied
      started := fun _ => hround
      remaining := hremaining.of_cons
      peers := fun x hx => hpeers x (List.mem_cons_of_mem _ hx) }
  · rw [if_neg hpr] at hp'
    by_cases hpq : p = q
    · subst hpq
      rw [if_pos rfl] at hp'
      cases hp'
      rw [Function.update_self]
      have hreceiver := h.node p receiver hq
      refine { hreceiver with inbox := ?_, nodup := ?_ }
      · rw [hreceiver.inbox, Ledger.enter, List.map_append, htallied.1]
        rfl
      · rw [Ledger.delivered_enter, List.nodup_append_comm]
        exact List.nodup_cons.mpr ⟨hnew, hreceiver.nodup⟩
    · rw [if_neg hpq] at hp'
      rw [Function.update_of_ne hpq]
      exact h.node p peer' hp'

/-- **The books are kept** when a vote is sent. -/
theorem Booked.send (h : n.Booked votes k ledger) (hr : n.nodes[r]? = some node) {ok : Bool}
    {q : Nat} {peers : List Nat} {next : Except CommError Bool → RankProgram α}
    (hactivity : node.activity = .sending ok (q :: peers) next) :
    ((n.deliver q ⟨node.round, ok⟩).update r fun node =>
      { node with activity := .sending ok peers next }).Booked votes k
      (Function.update ledger q ((ledger q).enter (r, node.round))) := by
  obtain ⟨hround, hqr, hnot, ⟨receiver, hq⟩, -⟩ := h.of_sending hr hactivity
  have hbooked : ∀ p peer', _ → Node.Booked votes n.world p _ peer' :=
    fun p peer' => h.node_send hr hactivity
  have hview := fun {p} {peer : Node α} (hp : n.nodes[p]? = some peer) =>
    view_send hqr hr hq hactivity hnot hround hp
  have hworld : ((n.deliver q ⟨node.round, ok⟩).update r
      (fun node => { node with activity := .sending ok peers next })).world = n.world :=
    (world_update _).trans (world_update _)
  generalize (n.deliver q ⟨node.round, ok⟩).update r
    (fun node => { node with activity := .sending ok peers next }) = n' at hbooked hview hworld ⊢
  have hback : ∀ {p : Nat} {peer' : Node α}, n'.nodes[p]? = some peer' →
      ∃ peer : Node α, n.nodes[p]? = some peer ∧ (∀ j, peer'.Returned j ↔ peer.Returned j) ∧
        ∀ j x, peer'.Sent j x ↔ peer.Sent j x ∨ p = r ∧ j = node.round ∧ x = q := by
    intro p peer' hp'
    obtain ⟨peer, hp⟩ := exists_node (hworld ▸ lt_world hp')
    obtain ⟨peer'', hp'', -, hreturned, hsent⟩ := hview hp
    obtain rfl : peer' = peer'' := Option.some.inj (hp'.symm.trans hp'')
    exact ⟨peer, hp, hreturned, hsent⟩
  have hstaffed : n'.Staffed k → n.Staffed k := by
    intro hs p peer hp hgone
    obtain ⟨peer', hp', hpresent, hreturned, -⟩ := hview hp
    exact (hreturned k).mp (hs p peer' hp' (hpresent.trans hgone))
  have hdelivered : ∀ {x e}, e ∈ (Function.update ledger q
      ((ledger q).enter (r, node.round)) x).delivered ↔
      e ∈ (ledger x).delivered ∨ x = q ∧ e = (r, node.round) := by
    intro x e
    by_cases hxq : x = q
    · subst hxq
      rw [Function.update_self, Ledger.delivered_enter, List.mem_append, List.mem_singleton,
        eq_self_iff_true, true_and]
    · rw [Function.update_of_ne hxq, or_iff_left fun hx => hxq hx.1]
  have hheard : ∀ x, (Function.update ledger q ((ledger q).enter (r, node.round)) x).heard =
      (ledger x).heard := by
    intro x
    by_cases hxq : x = q
    · subst hxq
      rw [Function.update_self, Ledger.enter]
    · rw [Function.update_of_ne hxq]
  refine ⟨fun p peer' hp' => ?_, fun x e he => ?_, fun hs x p peer' j hx hpx hp' hj hjx => ?_,
    fun hs x peer' p j hx' hret hj hjk hp hpx => ?_⟩
  · rw [hworld]
    exact hbooked p peer' hp'
  · rcases hdelivered.mp he with he | ⟨rfl, rfl⟩
    · obtain ⟨hne, peer, hp, hjx⟩ := h.sent x e he
      obtain ⟨peer', hp', -, -, hsent⟩ := hview hp
      exact ⟨hne, peer', hp', (hsent _ _).mpr (.inl hjx)⟩
    · obtain ⟨node', hr', -, -, hsent⟩ := hview hr
      exact ⟨hqr.symm, node', hr', (hsent _ _).mpr (.inr ⟨rfl, rfl, rfl⟩)⟩
  · rw [hdelivered]
    obtain ⟨peer, hp, -, hsent⟩ := hback hp'
    -- what has been sent was sent before, or it is the vote that is entered
    rcases (hsent j x).mp hjx with hjx | ⟨rfl, rfl, rfl⟩
    · exact .inl (h.complete (hstaffed hs) x p peer j (hworld ▸ hx) hpx hp hj hjx)
    · exact .inr ⟨rfl, rfl⟩
  · rw [hheard]
    obtain ⟨peer, hx, hreturned, -⟩ := hback hx'
    exact h.returned (hstaffed hs) x peer p j hx ((hreturned j).mp hret) hj hjk (hworld ▸ hp) hpx

/-! ### Turns and moves -/

/-- Whatever the answer, a rank goes on to cast its votes. -/
theorem casts_of_tallied {rank round : Nat} {l : Ledger} {a : Activity α}
    (h : a.Tallied votes rank round l) {next : Except CommError Bool → RankProgram α}
    (hn : a.next? = some next) (answer : Except CommError Bool) :
    (next answer).Casts (votes rank) (round + 1) := by
  cases a with
  | sending ok peers next' =>
      cases hn
      exact h.2.2 answer
  | sorting ok next' =>
      cases hn
      exact h.2.2 answer
  | hearing ok heard next' =>
      cases hn
      exact h.2.2.2 answer
  | computing _ | finished _ => cases hn

/-- A rank comes to its next barrier. -/
theorem Booked.start (h : n.Booked votes k ledger) (hr : n.nodes[r]? = some node)
    (hp : node.present = true) {vote : Bool} {next : Except CommError Bool → RankProgram α}
    (hactivity : node.activity = .computing (.barrier vote next)) :
    (n.update r fun _ => { node with
      activity := .sending vote (n.peers r) next
      round := node.round + 1 }).Booked votes k (Function.update ledger r (ledger r)) := by
  have hnode := h.node r node hr
  have htallied := hnode.tallied
  rw [hactivity] at htallied
  refine h.update hr ?_ ?_
  · cases htallied with
    | barrier hcasts =>
        exact { hnode with
          past := fun e he => Nat.le_succ_of_le (hnode.past e he)
          tallied := ⟨rfl, Ledger.heardIn_eq_nil fun e he => Nat.lt_succ_of_le (hnode.past e he),
            hcasts⟩
          started := fun _ => Nat.le_add_left ..
          remaining := nodup_peers
          peers := fun p hp => mem_peers.mp hp }
  · refine ⟨.refl _, fun _ he => he, ?_, ?_, ?_, ?_⟩
    · rintro j q ⟨hj, hle, -⟩
      exact ⟨hj, Nat.le_succ_of_le hle, fun ho => by have := ho.1; simp only at this; omega⟩
    · intro hgone
      rw [hp] at hgone
      cases hgone
    · -- the vote of the new round is still to be sent to every peer
      rintro - j q - hq ⟨hj, hle, hnot⟩
      have hne : j ≠ node.round + 1 := fun hj => hnot ⟨hj.symm, hq⟩
      have hle : j ≤ node.round + 1 := hle
      refine ⟨hj, by omega, fun ho => ?_⟩
      have hempty := ho.2
      rw [hactivity] at hempty
      cases hempty
    · rintro - j p - - hret hnot -
      refine absurd ?_ hnot
      rcases hret with hlt | ⟨-, hinside⟩
      · rcases Nat.lt_or_eq_of_le (Nat.le_of_lt_succ hlt) with hlt | rfl
        · exact .inl hlt
        · exact .inr ⟨rfl, by rw [hactivity]; rfl⟩
      · cases hinside

/-- A rank looks through the votes that it has set aside. -/
theorem Booked.sort (h : n.Booked votes k ledger) (hr : n.nodes[r]? = some node) {ok : Bool}
    {next : Except CommError Bool → RankProgram α} (hactivity : node.activity = .sorting ok next) :
    (n.update r fun _ => { node with
      activity := .hearing (ok && (node.early.filter fun v => v.round = node.round).all Vote.ok)
        (node.early.filter fun v => v.round = node.round).length next
      early := node.early.filter fun v => v.round ≠ node.round }).Booked votes k
      (Function.update ledger r ((ledger r).sort node.round)) := by
  have hnode := h.node r node hr
  have htallied := hnode.tallied
  rw [hactivity] at htallied
  obtain ⟨hok, hheard, hcasts⟩ := htallied
  -- the votes are set aside in the order of their entries, so sorting them sorts the entries
  have hmine : (node.early.filter fun v => v.round = node.round) =
      ((ledger r).early.filter fun e => e.2 = node.round).map (Vote.of votes) := by
    rw [hnode.early, List.filter_map]
    rfl
  have hothers : (node.early.filter fun v => v.round ≠ node.round) =
      ((ledger r).early.filter fun e => e.2 ≠ node.round).map (Vote.of votes) := by
    rw [hnode.early, List.filter_map]
    rfl
  have hnow : ((ledger r).sort node.round).heardIn node.round =
      (ledger r).early.filter fun e => e.2 = node.round := by
    rw [Ledger.heardIn_sort, hheard, List.nil_append]
  refine h.update hr ?_ (.of_same (Ledger.delivered_sort ..) (List.subset_append_left ..) rfl
    (by rw [hactivity]; rfl) (by rw [hactivity]; rfl) id)
  refine { hnode with
    early := hothers
    nodup := (Ledger.delivered_sort ..).symm.nodup hnode.nodup
    past := fun e he => ?_
    tallied := ⟨?_, ?_, fun e he => ?_, hcasts⟩
    started := fun _ => hnode.started (by rw [hactivity]; rfl)
    remaining := List.nodup_nil
    peers := fun p hp => (List.not_mem_nil hp).elim }
  · rcases List.mem_append.mp he with he | he
    · exact hnode.past e he
    · exact Nat.le_of_eq (by simpa using (List.mem_filter.mp he).2)
  · rw [hnow, hmine, List.length_map]
  · rw [hnow, hmine, hok, List.all_map]
    rfl
  · simpa using (List.mem_filter.mp he).2

/-- A rank hears a vote of its round. -/
theorem Booked.hear (h : n.Booked votes k ledger) (hr : n.nodes[r]? = some node) {ok : Bool}
    {heard : Nat} {next : Except CommError Bool → RankProgram α} {vote : Vote} {inbox : List Vote}
    (hactivity : node.activity = .hearing ok heard next) (hinbox : node.inbox = vote :: inbox)
    (hv : vote.round = node.round) :
    (n.update r fun _ => { node with
      activity := .hearing (ok && vote.ok) (heard + 1) next
      inbox }).Booked votes k (Function.update ledger r (ledger r).hear) := by
  have hnode := h.node r node hr
  have htallied := hnode.tallied
  rw [hactivity] at htallied
  obtain ⟨hheard, hok, hearly, hcasts⟩ := htallied
  obtain ⟨e, inbox', hl, rfl, rfl⟩ :=
    List.map_eq_cons_iff.mp (hnode.inbox.symm.trans hinbox)
  have hround : e.2 = node.round := hv
  have hnow : (ledger r).hear.heardIn node.round = (ledger r).heardIn node.round ++ [e] := by
    simp [Ledger.heardIn, Ledger.hear, hl, List.filter_append, hround]
  refine h.update hr ?_ (.of_same (Ledger.delivered_hear _) (List.subset_append_left ..) rfl
    (by rw [hactivity]; rfl) (by rw [hactivity]; rfl) id)
  refine { hnode with
    inbox := ?_
    nodup := (Ledger.delivered_hear _).symm.nodup hnode.nodup
    past := fun e' he => ?_
    tallied := ⟨?_, ?_, hearly, hcasts⟩
    started := fun _ => hnode.started (by rw [hactivity]; rfl)
    remaining := List.nodup_nil
    peers := fun p hp => (List.not_mem_nil hp).elim }
  · simp [Ledger.hear, hl]
  · simp only [Ledger.hear, hl, List.take_succ_cons, List.take_zero, List.mem_append,
      List.mem_singleton] at he
    rcases he with he | rfl
    · exact hnode.past e' he
    · exact Nat.le_of_eq hround
  · rw [hnow, hheard, List.length_append, List.length_singleton]
  · rw [hnow, hok, List.all_append, Bool.and_assoc]
    simp [Vote.of]

/-- A rank sets a vote of another round aside. -/
theorem Booked.keep (h : n.Booked votes k ledger) (hr : n.nodes[r]? = some node) {ok : Bool}
    {heard : Nat} {next : Except CommError Bool → RankProgram α} {vote : Vote} {inbox : List Vote}
    (hactivity : node.activity = .hearing ok heard next) (hinbox : node.inbox = vote :: inbox)
    (hv : vote.round ≠ node.round) :
    (n.update r fun _ => { node with inbox, early := node.early ++ [vote] }).Booked votes k
      (Function.update ledger r (ledger r).keep) := by
  have hnode := h.node r node hr
  have htallied := hnode.tallied
  rw [hactivity] at htallied
  obtain ⟨hheard, hok, hearly, hcasts⟩ := htallied
  obtain ⟨e, inbox', hl, rfl, rfl⟩ :=
    List.map_eq_cons_iff.mp (hnode.inbox.symm.trans hinbox)
  have hdelivered := (ledger r).delivered_keep
  refine h.update hr ?_ (.of_same (.of_eq hdelivered) (fun _ he => he) rfl rfl rfl id)
  refine { hnode with
    early := ?_
    inbox := ?_
    nodup := hdelivered ▸ hnode.nodup
    tallied := ?_ }
  · simp [Ledger.keep, hl, hnode.early]
  · simp [Ledger.keep, hl]
  · rw [hactivity]
    refine ⟨hheard, hok, fun e' he => ?_, hcasts⟩
    simp only [Ledger.keep, hl, List.take_succ_cons, List.take_zero, List.mem_append,
      List.mem_singleton] at he
    rcases he with he | rfl
    · exact hearly e' he
    · exact hv

/-- A rank comes back from a barrier. -/
theorem Booked.resume (h : n.Booked votes k ledger) (hr : n.nodes[r]? = some node)
    {answer : Except CommError Bool} {next : Except CommError Bool → RankProgram α}
    (ha : n.answer? r = some answer) (hn : node.activity.next? = some next) :
    (n.update r fun _ => { node with activity := .computing (next answer) }).Booked votes k
      (Function.update ledger r (ledger r)) := by
  have hnode := h.node r node hr
  refine h.update hr ?_ ?_
  · exact { hnode with
      tallied := casts_of_tallied hnode.tallied hn answer
      started := fun hinside => by cases hinside
      remaining := List.nodup_nil
      peers := fun p hp => (List.not_mem_nil hp).elim }
  -- up to round `k` no barrier fails, and who does not fail has sent and heard everything
  have hcase : n.Staffed k → k < node.round ∨ node.activity.remaining = [] ∧
      ∀ p ∈ n.peers r, (p, node.round) ∈ (ledger r).heard := by
    intro hs
    cases answer with
    | error e =>
        obtain ⟨node', hr', hk⟩ := h.lt_round_of_error hs ha
        obtain rfl : node = node' := Option.some.inj (hr.symm.trans hr')
        exact .inl hk
    | ok v =>
        obtain ⟨node', hr', hall, -⟩ := h.of_answer?_ok ha
        obtain ⟨node'', heard, next', hr'', hactivity, -⟩ := Network.of_answer?_ok ha
        obtain rfl : node = node' := Option.some.inj (hr.symm.trans hr')
        obtain rfl : node = node'' := Option.some.inj (hr.symm.trans hr'')
        exact .inr ⟨by rw [hactivity]; rfl, hall⟩
  obtain ⟨hpresent, -⟩ := next?_of_answer? hr ha
  refine ⟨.refl _, fun _ he => he, ?_, ?_, ?_, ?_⟩
  · rintro j q ⟨hj, hle, -⟩
    exact ⟨hj, hle, fun ho => List.not_mem_nil ho.2⟩
  · intro hgone
    rw [hpresent] at hgone
    cases hgone
  · rintro hs j q hjk - ⟨hj, hle, -⟩
    refine ⟨hj, hle, ?_⟩
    rintro ⟨rfl, howed⟩
    rcases hcase hs with hk | ⟨hremaining, -⟩
    · omega
    · rw [hremaining] at howed
      cases howed
  · intro hs j p hj hjk hret hnot hp
    obtain rfl : j = node.round := by
      rcases hret with hlt | ⟨rfl, -⟩
      · exact absurd (.inl hlt) hnot
      · rfl
    rcases hcase hs with hk | ⟨-, hall⟩
    · omega
    · exact hall p hp

/-- **The books can be kept over every turn.** -/
theorem Booked.turn (h : n.Booked votes k ledger) (hr : n.nodes[r]? = some node)
    (hp : node.present = true) (ht : n.Turn r node n') : ∃ ledger', n'.Booked votes k ledger' := by
  have hnode := h.node r node hr
  cases ht with
  | finish hactivity =>
      refine ⟨Function.update ledger r (ledger r), h.update hr ?_ (.of_same (.refl _)
        (fun _ he => he) rfl (by rw [hactivity]; rfl) (by rw [hactivity]; rfl) id)⟩
      exact { hnode with
        tallied := trivial
        started := fun hinside => by cases hinside
        remaining := List.nodup_nil
        peers := fun p hp => (List.not_mem_nil hp).elim }
  | start hactivity => exact ⟨_, h.start hr hp hactivity⟩
  | send hactivity _ => exact ⟨_, h.send hr hactivity⟩
  | sent hactivity =>
      have htallied := hnode.tallied
      rw [hactivity] at htallied
      refine ⟨Function.update ledger r (ledger r), h.update hr ?_ (.of_same (.refl _)
        (fun _ he => he) rfl (by rw [hactivity]; rfl) (by rw [hactivity]; rfl) id)⟩
      exact { hnode with
        tallied := htallied
        started := fun _ => hnode.started (by rw [hactivity]; rfl)
        remaining := List.nodup_nil
        peers := fun p hp => (List.not_mem_nil hp).elim }
  | sort hactivity => exact ⟨_, h.sort hr hactivity⟩
  | hear hactivity hinbox hv => exact ⟨_, h.hear hr hactivity hinbox hv⟩
  | keep hactivity hinbox hv => exact ⟨_, h.keep hr hactivity hinbox hv⟩
  | resume ha hn => exact ⟨_, h.resume hr ha hn⟩
  | wait => exact ⟨_, h⟩

/-- A rank goes away with its books. -/
theorem Booked.drop (h : n.Booked votes k ledger) (r : Nat) :
    ∃ ledger', (n.drop r).Booked votes k ledger' := by
  cases hr : n.nodes[r]? with
  | none =>
      rw [Network.drop, update_of_none hr]
      exact ⟨_, h⟩
  | some node =>
      rw [Network.drop, update_eq hr rfl]
      exact ⟨Function.update ledger r (ledger r), h.update hr { h.node r node hr with }
        (.of_same (.refl _) (fun _ he => he) rfl rfl rfl fun _ => rfl)⟩

/-- Votes that overtake each other do so in the books. -/
theorem Booked.shuffle (h : n.Booked votes k ledger) (hr : n.nodes[r]? = some node)
    {inbox : List Vote} (order : inbox.Perm node.inbox) :
    ∃ ledger', (n.update r fun node => { node with inbox }).Booked votes k ledger' := by
  have hnode := h.node r node hr
  rw [hnode.inbox] at order
  obtain ⟨waiting, hperm, rfl⟩ := exists_map_of_perm order
  have hdelivered : ({ ledger r with inbox := waiting } : Ledger).delivered.Perm
      (ledger r).delivered :=
    (hperm.append_left _).append_left _
  rw [update_eq hr rfl]
  refine ⟨Function.update ledger r { ledger r with inbox := waiting }, h.update hr ?_
    (.of_same hdelivered (fun _ he => he) rfl rfl rfl id)⟩
  exact { hnode with
    inbox := rfl
    nodup := hdelivered.symm.nodup hnode.nodup }

/-- **The books can be kept over every move.** -/
theorem Booked.move (h : n.Booked votes k ledger) (hm : n.Move n') :
    ∃ ledger', n'.Booked votes k ledger' := by
  cases hm with
  | act rank =>
      cases hr : n.nodes[rank]? with
      | none =>
          rw [act_of_none hr]
          exact ⟨_, h⟩
      | some node =>
          cases hp : node.present with
          | false =>
              rw [act_of_gone hr hp]
              exact ⟨_, h⟩
          | true => exact h.turn hr hp (turn_of_act hr hp)
  | drop rank => exact h.drop rank
  | shuffle rank hr order => exact h.shuffle hr order

/-- At first nothing has been sent. -/
theorem booked_ofPrograms {programs : List (RankProgram α)}
    (hcasts : ∀ (p : Nat) (program : RankProgram α), programs[p]? = some program →
      program.Casts (votes p) 1) :
    (ofPrograms programs).Booked votes k fun _ => .empty := by
  have hget : ∀ {p : Nat} {node : Node α}, (ofPrograms programs).nodes[p]? = some node →
      ∃ program, programs[p]? = some program ∧ node = ⟨true, .computing program, 0, [], []⟩ := by
    intro p node hp
    rw [ofPrograms, List.getElem?_map] at hp
    obtain ⟨program, hprogram, rfl⟩ := Option.map_eq_some_iff.mp hp
    exact ⟨program, hprogram, rfl⟩
  refine ⟨fun p node hp => ?_, fun r e he => ?_, fun hs r p peer j _ _ hp _ hsent => ?_,
    fun hs r node p j hr hret hj _ _ _ => ?_⟩
  · obtain ⟨program, hprogram, rfl⟩ := hget hp
    exact {
      early := rfl
      inbox := rfl
      nodup := List.nodup_nil
      past := fun e he => (List.not_mem_nil he).elim
      tallied := hcasts p program hprogram
      started := fun hinside => by cases hinside
      remaining := List.nodup_nil
      peers := fun p hp => (List.not_mem_nil hp).elim }
  · cases he
  · obtain ⟨program, -, rfl⟩ := hget hp
    exact absurd (Nat.le_trans hsent.1 hsent.2.1) (Nat.not_succ_le_zero 0)
  · obtain ⟨program, -, rfl⟩ := hget hr
    exact absurd (Nat.le_trans hj hret.le) (Nat.not_succ_le_zero 0)

/-- **The books of whatever is reached can be kept.** -/
theorem Reached.booked {programs : List (RankProgram α)}
    (hcasts : ∀ (p : Nat) (program : RankProgram α), programs[p]? = some program →
      program.Casts (votes p) 1)
    (h : Reached programs n) (k : Nat) : ∃ ledger, n.Booked votes k ledger := by
  induction h with
  | refl => exact ⟨_, booked_ofPrograms hcasts⟩
  | tail _ hmove ih =>
      obtain ⟨ledger, hbooked⟩ := ih
      exact hbooked.move hmove

end Network

end ParticleSim
