import ParticleSim.Proofs.Rank.Keeping
import Mathlib.Algebra.Ring.Nat
import Mathlib.Data.List.Perm.Basic

/-!
# Ranks — Progress

When everyone has come to a barrier and nobody has left it by going away, the votes that a rank was
sent and those that it is still owed are one from each peer (`Network.Booked.perm_peers`).  So none
is lost or counted twice (`Network.Booked.count`), and the ranks do not all wait for each other
(`Network.Booked.progress`).

How much work a barrier still takes (`Network.work`) is two steps for each vote that is to be sent,
for it is sent and heard, one for each that waits, and a few for each rank.  Every turn of a rank
inside of it is some of that work, so all of them can come back (`Network.Reached.returning`).
-/

namespace ParticleSim

namespace Node

variable {α : Type} {node : Node α}

/-- How much work the `k`-th barrier still is for a node. -/
def work (k : Nat) (node : Node α) : Nat :=
  if node.round = k then
    match node.activity with
    | .sending _ peers _ => 2 * peers.length + node.inbox.length + 3
    | .sorting _ _ => node.inbox.length + 2
    | .hearing _ _ _ => node.inbox.length + 1
    | .computing _ | .finished _ => 0
  else 0

theorem work_pos (h : node.activity.inside = true) :
    0 < node.work node.round := by
  rw [work, if_pos rfl]
  cases hactivity : node.activity with
  | sending _ _ _ | sorting _ _ | hearing _ _ _ => exact Nat.succ_pos _
  | computing _ | finished _ =>
      rw [hactivity] at h
      cases h

/-- A vote that arrives is at most one step more. -/
theorem work_deliver (k : Nat) (node : Node α) (vote : Vote) :
    ({ node with inbox := node.inbox ++ [vote] } : Node α).work k ≤ node.work k + 1 := by
  simp only [work, List.length_append, List.length_singleton]
  split
  · cases node.activity <;> simp only <;> omega
  · exact Nat.zero_le _

/-- A node that takes a turn comes to no barrier less, and does not go away. -/
structure Follows (node node' : Node α) : Prop where
  round : node.round ≤ node'.round
  gone : node'.present = false → node.present = false ∧ node'.round = node.round ∧
    node'.activity.inside = node.activity.inside

theorem Follows.refl (node : Node α) : Follows node node :=
  ⟨Nat.le_refl _, fun hgone => ⟨hgone, rfl, rfl⟩⟩

theorem Follows.trans {node₁ node₂ : Node α} (h : Follows node node₁) (h' : Follows node₁ node₂) :
    Follows node node₂ := by
  refine ⟨Nat.le_trans h.round h'.round, fun hgone => ?_⟩
  obtain ⟨hgone, hround, hinside⟩ := h'.gone hgone
  obtain ⟨hgone, hround', hinside'⟩ := h.gone hgone
  exact ⟨hgone, hround.trans hround', hinside.trans hinside'⟩

theorem Follows.of_present {node' : Node α} (hround : node.round ≤ node'.round)
    (hp : node'.present = true) : Follows node node' :=
  ⟨hround, fun hgone => by rw [hp] at hgone; cases hgone⟩

end Node

namespace Network

variable {α : Type} {votes : Nat → Nat → Bool} {k r : Nat} {n n' : Network α}
  {ledger : Nat → Ledger} {node : Node α}

/-! ### Votes of a round -/

/-- The peers that still have to send a rank their votes of a round. -/
def owing (n : Network α) (rank k : Nat) : List Nat :=
  (n.peers rank).filter fun p => (n.nodes[p]?).any fun peer => decide (peer.Owes k rank)

theorem mem_owing {p : Nat} :
    p ∈ n.owing r k ↔ p ∈ n.peers r ∧ ∃ peer, n.nodes[p]? = some peer ∧ peer.Owes k r := by
  rw [owing, List.mem_filter, Option.any_eq_true]
  simp only [decide_eq_true_eq]

theorem length_peers (hr : r < n.world) : (n.peers r).length = n.world - 1 := by
  have herase : (List.range n.world).erase r = n.peers r := by
    rw [List.nodup_range.erase_eq_filter]
    exact List.filter_congr fun p _ => (decide_not (p := p = r)).symm
  rw [← herase, List.length_erase_of_mem (List.mem_range.mpr hr), List.length_range]

/-- When everyone has come to a barrier, the peers whose votes a rank was sent and those who owe it
theirs are all of its peers. -/
theorem Booked.perm_peers (h : n.Booked votes k ledger) (hr : n.nodes[r]? = some node)
    (hs : n.Staffed k) (hk : 1 ≤ k)
    (hall : ∀ (p : Nat) (peer : Node α), n.nodes[p]? = some peer → k ≤ peer.round) :
    (((ledger r).delivered.filter fun e => e.2 = k).map Prod.fst ++ n.owing r k).Perm
      (n.peers r) := by
  have hsent : ∀ {p}, p ∈ ((ledger r).delivered.filter fun e => e.2 = k).map Prod.fst →
      p ≠ r ∧ ∃ peer, n.nodes[p]? = some peer ∧ peer.Sent k r := by
    intro p hp
    obtain ⟨e, he, rfl⟩ := List.mem_map.mp hp
    obtain ⟨he, hround⟩ := List.mem_filter.mp he
    exact decide_eq_true_eq.mp hround ▸ h.sent r e he
  have hdisjoint : ∀ p, p ∈ ((ledger r).delivered.filter fun e => e.2 = k).map Prod.fst →
      p ∉ n.owing r k := by
    intro p hp howing
    obtain ⟨-, peer, hpeer, hpsent⟩ := hsent hp
    obtain ⟨-, peer', hpeer', howes⟩ := mem_owing.mp howing
    obtain rfl : peer = peer' := Option.some.inj (hpeer.symm.trans hpeer')
    exact hpsent.2.2 howes
  have hnodup := List.nodup_append.mpr ⟨Ledger.nodup_peers (h.node r node hr).nodup k,
    nodup_peers.filter _, fun p hp q hq hpq => hdisjoint p hp (hpq ▸ hq)⟩
  -- a peer that does not owe its vote has sent it, and then it is on the books
  refine (List.perm_ext_iff_of_nodup hnodup nodup_peers).mpr fun p => ?_
  rw [List.mem_append]
  constructor
  · rintro (hp | hp)
    · obtain ⟨hpr, peer, hpeer, -⟩ := hsent hp
      exact mem_peers.mpr ⟨hpr, lt_world hpeer⟩
    · exact (mem_owing.mp hp).1
  · intro hp
    obtain ⟨hpr, hpw⟩ := mem_peers.mp hp
    obtain ⟨peer, hpeer⟩ := exists_node hpw
    by_cases howes : peer.Owes k r
    · exact .inr (mem_owing.mpr ⟨hp, peer, hpeer, howes⟩)
    · have hdelivered := h.complete hs r p peer k (lt_world hr) hpr hpeer (Nat.le_refl k)
        ⟨hk, hall p peer hpeer, howes⟩
      exact .inl (List.mem_map_of_mem (List.mem_filter.mpr ⟨hdelivered, decide_eq_true rfl⟩))

/-- **No vote is lost or counted twice.** -/
theorem Booked.count (h : n.Booked votes k ledger) (hr : n.nodes[r]? = some node)
    (hround : node.round = k) (hinside : node.activity.inside = true) (hs : n.Staffed k)
    (hall : ∀ (p : Nat) (peer : Node α), n.nodes[p]? = some peer → k ≤ peer.round) :
    node.activity.heard + node.early.countP (·.round = k) + node.inbox.countP (·.round = k) +
      (n.owing r k).length = n.world - 1 := by
  have hnode := h.node r node hr
  have hk : 1 ≤ k := hround ▸ hnode.started hinside
  have hheard : node.activity.heard = (ledger r).heard.countP fun e => e.2 = k := by
    rw [hnode.tallied.heard_eq hinside, hround, Ledger.heardIn, List.countP_eq_length_filter]
  have hearly : node.early.countP (·.round = k) = (ledger r).early.countP fun e => e.2 = k := by
    rw [hnode.early, List.countP_map]
    rfl
  have hinbox : node.inbox.countP (·.round = k) = (ledger r).inbox.countP fun e => e.2 = k := by
    rw [hnode.inbox, List.countP_map]
    rfl
  calc node.activity.heard + node.early.countP (·.round = k) + node.inbox.countP (·.round = k) +
        (n.owing r k).length
      = (ledger r).delivered.countP (fun e => e.2 = k) + (n.owing r k).length := by
        rw [hheard, hearly, hinbox, Ledger.delivered, List.countP_append, List.countP_append,
          Nat.add_assoc (List.countP _ _)]
    _ = (((ledger r).delivered.filter fun e => e.2 = k).map Prod.fst ++ n.owing r k).length := by
        rw [List.length_append, List.length_map, List.countP_eq_length_filter]
    _ = (n.peers r).length := (h.perm_peers hr hs hk hall).length_eq
    _ = n.world - 1 := length_peers (lt_world hr)

/-- **Not everyone waits**: who has to wait is owed a vote by a peer that can send it. -/
theorem Booked.progress (h : n.Booked votes k ledger) (hr : n.nodes[r]? = some node)
    (hround : node.round = k) (hinside : node.activity.inside = true) (hs : n.Staffed k)
    (hall : ∀ (p : Nat) (peer : Node α), n.nodes[p]? = some peer → k ≤ peer.round) :
    ∃ p peer, n.nodes[p]? = some peer ∧ peer.round = k ∧ peer.activity.inside = true ∧
      peer.present = true ∧ n.act p ≠ n := by
  -- who has not come back from round `k` is there
  have hthere : ∀ {p : Nat} {peer : Node α}, n.nodes[p]? = some peer → peer.round = k →
      peer.activity.inside = true → peer.present = true := by
    intro p peer hp hk hinside
    by_contra hgone
    rcases hs p peer hp (Bool.not_eq_true _ ▸ hgone) with hlt | ⟨-, houtside⟩
    · omega
    · rw [hinside] at houtside
      cases houtside
  have hpresent := hthere hr hround hinside
  by_cases hact : n.act r = n
  swap
  · exact ⟨r, node, hr, hround, hinside, hpresent, hact⟩
  -- nothing waits for it, and it has not heard everyone, so somebody owes it a vote
  obtain ⟨ok, heard, next, hactivity, hinbox, hlt⟩ := of_act_eq_self hr hpresent hinside hact
  have hcount := h.count hr hround hinside hs hall
  have hearly : node.early.countP (·.round = k) = 0 := by
    have htallied := (h.node r node hr).tallied
    rw [hactivity] at htallied
    rw [(h.node r node hr).early, List.countP_map, List.countP_eq_zero]
    intro e he hk
    exact htallied.2.2.1 e he (hround ▸ decide_eq_true_eq.mp hk)
  rw [length_peers (lt_world hr)] at hlt
  simp only [hearly, hinbox, hactivity, Activity.heard, List.countP_nil] at hcount
  obtain ⟨p, hp⟩ := List.exists_mem_of_length_pos (l := n.owing r k) (by omega)
  obtain ⟨-, peer, hpeer, hpround, howed⟩ := mem_owing.mp hp
  have hpinside : peer.activity.inside = true := by
    by_contra houtside
    rw [Activity.remaining_of_outside (Bool.not_eq_true _ ▸ houtside)] at howed
    cases howed
  have hppresent := hthere hpeer hpround hpinside
  refine ⟨p, peer, hpeer, hpround, hpinside, hppresent, fun hsame => ?_⟩
  obtain ⟨_, _, _, hhearing, -, -⟩ := of_act_eq_self hpeer hppresent hpinside hsame
  rw [hhearing] at howed
  cases howed

/-! ### Work -/

/-- How much work the `k`-th barrier still takes. -/
def work (n : Network α) (k : Nat) : Nat := (n.nodes.map (Node.work k)).sum

/-- In a sum over all nodes, a node that changes takes its own part. -/
theorem sum_update (load : Node α → Nat) (h : n.nodes[r]? = some node) (f : Node α → Node α) :
    ((n.update r f).nodes.map load).sum + load node = (n.nodes.map load).sum + load (f node) := by
  obtain ⟨nodes⟩ := n
  simp only [update] at h ⊢
  induction nodes generalizing r with
  | nil => cases h
  | cons first nodes ih =>
      cases r with
      | zero =>
          cases h
          simp only [List.modify_zero_cons, List.map_cons, List.sum_cons]
          omega
      | succ r =>
          have hrest := ih h
          simp only [List.modify_succ_cons, List.map_cons, List.sum_cons]
          omega

/-- When a vote is sent, the receiver has one step more at most, and the sender two less. -/
theorem sum_send {load : Node α → Nat} (h : n.nodes[r]? = some node) {ok : Bool} {peer : Nat}
    {peers : List Nat} {next : Except CommError Bool → RankProgram α}
    (haccepts : n.accepts peer = true)
    (hgain : ∀ (receiver : Node α) (vote : Vote),
      load { receiver with inbox := receiver.inbox ++ [vote] } ≤ load receiver + 1)
    (hloss : ∀ sender : Node α, sender.round = node.round → sender.activity = node.activity →
      load { sender with activity := .sending ok peers next } + 2 = load sender) :
    (((n.deliver peer ⟨node.round, ok⟩).update r fun node =>
      { node with activity := .sending ok peers next }).nodes.map load).sum <
        (n.nodes.map load).sum := by
  obtain ⟨receiver, hreceiver, -⟩ := (Option.any_eq_true ..).mp haccepts
  have hreceived := sum_update load hreceiver fun node' =>
    { node' with inbox := node'.inbox ++ [⟨node.round, ok⟩] }
  have hmore := hgain receiver ⟨node.round, ok⟩
  obtain ⟨sender, hsender, hsround, hsactivity⟩ : ∃ sender : Node α,
      (n.deliver peer ⟨node.round, ok⟩).nodes[r]? = some sender ∧
        sender.round = node.round ∧ sender.activity = node.activity := by
    rw [deliver, nodes_update, h]
    by_cases hpr : peer = r
    · exact ⟨_, if_pos hpr, rfl, rfl⟩
    · exact ⟨node, if_neg hpr, rfl, rfl⟩
  have hsent := sum_update load hsender fun node =>
    { node with activity := .sending ok peers next }
  have hless := hloss sender hsround hsactivity
  rw [deliver] at hsent ⊢
  omega

/-- **A turn inside of a barrier is work on it.** -/
theorem work_turn (h : n.nodes[r]? = some node) (hround : node.round = k)
    (hinside : node.activity.inside = true) (ht : n.Turn r node n') (hne : n' ≠ n) :
    n'.work k < n.work k := by
  subst hround
  -- a turn that concerns one node only
  have hone : ∀ {node' : Node α}, node'.work node.round < node.work node.round →
      (n.update r fun _ => node').work node.round < n.work node.round := by
    intro node' hlt
    have hupdate := sum_update (Node.work node.round) h fun _ => node'
    rw [work, work]
    omega
  cases ht with
  | finish hactivity | start hactivity =>
      rw [hactivity] at hinside
      cases hinside
  | @send ok peer peers next hactivity haccepts =>
      refine sum_send h haccepts (Node.work_deliver node.round) fun sender hround hsame => ?_
      simp only [Node.work, hround, hsame, hactivity, if_true, List.length_cons]
      omega
  | sent hactivity =>
      refine hone ?_
      simp [Node.work, hactivity]
  | sort hactivity =>
      refine hone ?_
      simp [Node.work, hactivity]
  | hear hactivity hinbox _ =>
      refine hone ?_
      simp [Node.work, hactivity, hinbox]
  | keep hactivity hinbox _ =>
      refine hone ?_
      simp [Node.work, hactivity, hinbox]
  | resume _ hn =>
      refine hone ?_
      rw [Node.work, if_pos rfl]
      exact Node.work_pos hinside
  | wait _ => exact absurd rfl hne

/-! ### Coming back -/

theorem follows_update {f : Node α → Node α} {p : Nat} {peer' : Node α}
    (hp' : (n.update r f).nodes[p]? = some peer')
    (hf : ∀ node, n.nodes[r]? = some node → node.Follows (f node)) :
    ∃ peer, n.nodes[p]? = some peer ∧ peer.Follows peer' := by
  rcases of_nodes_update hp' with ⟨rfl, peer, hp, rfl⟩ | ⟨-, hp⟩
  · exact ⟨peer, hp, hf peer hp⟩
  · exact ⟨peer', hp, .refl peer'⟩

theorem follows_turn (h : n.nodes[r]? = some node) (hp : node.present = true)
    (ht : n.Turn r node n') {p : Nat} {peer' : Node α} (hp' : n'.nodes[p]? = some peer') :
    ∃ peer, n.nodes[p]? = some peer ∧ peer.Follows peer' := by
  -- a turn that concerns one node only
  have hone : ∀ {node' : Node α}, (n.update r fun _ => node').nodes[p]? = some peer' →
      node.round ≤ node'.round → node'.present = node.present →
      ∃ peer, n.nodes[p]? = some peer ∧ peer.Follows peer' := by
    intro node' hp' hround hpresent
    refine follows_update hp' fun node₀ h₀ => ?_
    obtain rfl : node = node₀ := Option.some.inj (h.symm.trans h₀)
    exact .of_present hround (hpresent.trans hp)
  cases ht with
  | start _ => exact hone hp' (Nat.le_succ _) rfl
  | @send ok q peers next hactivity _ =>
      have hreceive : ∀ receiver : Node α,
          receiver.Follows { receiver with inbox := receiver.inbox ++ [⟨node.round, ok⟩] } :=
        fun receiver => ⟨Nat.le_refl _, fun hgone => ⟨hgone, rfl, rfl⟩⟩
      have hsender : ∀ sender, (n.deliver q ⟨node.round, ok⟩).nodes[r]? = some sender →
          sender.present = true := by
        intro sender hsender
        obtain ⟨node₀, h₀, hfollows⟩ := follows_update hsender fun receiver _ => hreceive receiver
        obtain rfl : node = node₀ := Option.some.inj (h.symm.trans h₀)
        by_contra hgone
        rw [(hfollows.gone (Bool.not_eq_true _ ▸ hgone)).1] at hp
        cases hp
      obtain ⟨middle, hm, hsent⟩ := follows_update hp' fun sender hs =>
        .of_present (Nat.le_refl _) (hsender sender hs)
      obtain ⟨peer, hpeer, hreceived⟩ := follows_update hm fun receiver _ => hreceive receiver
      exact ⟨peer, hpeer, hreceived.trans hsent⟩
  | wait _ => exact ⟨peer', hp', .refl peer'⟩
  | _ => exact hone hp' (Nat.le_refl _) rfl

/-- **All come back** from a barrier that all have come to, whatever has happened before. -/
theorem Reached.returning {programs : List (RankProgram α)}
    (hcasts : ∀ (p : Nat) (program : RankProgram α), programs[p]? = some program →
      program.Casts (votes p) 1) (h : Reached programs n) (hs : n.Staffed k)
    (hall : ∀ (p : Nat) (node : Node α), n.nodes[p]? = some node → k ≤ node.round) :
    ∃ ranks : List Nat, ∀ (p : Nat) (node : Node α),
      (n.follow (ranks.map Event.act)).nodes[p]? = some node → node.Returned k := by
  induction hw : n.work k using Nat.strongRecOn generalizing n with
  | ind w ih =>
      subst hw
      by_cases hreturned : ∀ (p : Nat) (node : Node α), n.nodes[p]? = some node → node.Returned k
      · exact ⟨[], hreturned⟩
      · simp only [not_forall] at hreturned
        obtain ⟨r, node, hr, hnot⟩ := hreturned
        have hround : node.round = k := by
          by_contra hne
          exact hnot (.inl (Nat.lt_of_le_of_ne (hall r node hr) (Ne.symm hne)))
        have hinside : node.activity.inside = true := by
          by_contra houtside
          exact hnot (.inr ⟨hround.symm, Bool.not_eq_true _ ▸ houtside⟩)
        obtain ⟨ledger, hbooked⟩ := h.booked hcasts k
        obtain ⟨q, peer, hq, hqround, hqinside, hpresent, hact⟩ :=
          hbooked.progress hr hround hinside hs hall
        have hturn := turn_of_act hq hpresent
        have hfollows := fun {p} {peer' : Node α} (hp' : (n.act q).nodes[p]? = some peer') =>
          follows_turn hq hpresent hturn hp'
        have hs' : (n.act q).Staffed k := by
          intro p peer' hp' hgone
          obtain ⟨peer, hp, hf⟩ := hfollows hp'
          obtain ⟨hgone, hround, hinside⟩ := hf.gone hgone
          exact (Node.returned_congr hround hinside).mpr (hs p peer hp hgone)
        have hall' : ∀ (p : Nat) (peer' : Node α), (n.act q).nodes[p]? = some peer' →
            k ≤ peer'.round := by
          intro p peer' hp'
          obtain ⟨peer, hp, hf⟩ := hfollows hp'
          exact Nat.le_trans (hall p peer hp) hf.round
        obtain ⟨ranks, hranks⟩ := ih _ (work_turn hq hqround hqinside hturn hact)
          (h.tail (.act q)) hs' hall' rfl
        exact ⟨q :: ranks, hranks⟩

end Network

end ParticleSim
