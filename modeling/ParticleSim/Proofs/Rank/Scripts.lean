import ParticleSim.Proofs.Rank.Meeting
import ParticleSim.Proofs.Rank.Agreement

/-!
# Ranks — Programs that meet in a network

What a rank will do with an answer does not show while it waits for the answer.  So a network of
programs that meet goes through the same turns as one of ranks that cast the votes of the meeting
whatever they are told (`Network.scripted`), as long as every answer is the one of the meeting.  It
is, because those ranks agree: the books of that network can be kept.

* `Network.OnCourse`: every rank is where the meeting has it after as many barriers.
* `Network.Reached.onCourse`: so it is in everything that is reached while nobody has gone away.
* `Network.OnCourse.eq_results`: and who has finished has come to its result in the meeting.
-/

namespace ParticleSim

variable {α : Type}

/-! ### Votes that do not depend on answers -/

/-- Cast `left` given votes, the next one at the `k`-th barrier. -/
def RankProgram.script (votes : Nat → Bool) : (left k : Nat) → RankProgram Unit
  | 0, _ => .done ()
  | left + 1, k => .barrier (votes k) fun _ => script votes left (k + 1)

theorem RankProgram.script_casts (votes : Nat → Bool) (left k : Nat) :
    (script votes left k).Casts votes k := by
  induction left generalizing k with
  | zero => exact .done ()
  | succ left ih => exact .barrier fun _ => ih (k + 1)

/-- The vote of each rank at each barrier of a meeting. -/
def RankProgram.meetingVotes {world : Nat} (programs : Fin world → RankProgram α) (rank k : Nat) :
    Bool :=
  if h : rank < world then (stage programs (k - 1) ⟨rank, h⟩).nextVote else true

/-- The scripts of a meeting of `rounds` barriers. -/
def RankProgram.scripts {world : Nat} (programs : Fin world → RankProgram α) (rounds : Nat) :
    List (RankProgram Unit) :=
  List.ofFn fun r : Fin world => script (meetingVotes programs r) rounds 1

theorem RankProgram.casts_scripts {world : Nat} (programs : Fin world → RankProgram α)
    (rounds p : Nat) (program : RankProgram Unit)
    (h : (scripts programs rounds)[p]? = some program) :
    program.Casts (meetingVotes programs p) 1 := by
  obtain ⟨hlt, rfl⟩ := List.getElem?_eq_some_iff.mp h
  simp only [scripts, List.getElem_ofFn]
  exact script_casts _ _ _

/-- Where a rank is, when it goes on with a script. -/
def Activity.scripted (script : RankProgram Unit) : Activity α → Activity Unit
  | computing _ => computing script
  | sending ok peers _ => sending ok peers fun _ => script
  | sorting ok _ => sorting ok fun _ => script
  | hearing ok heard _ => hearing ok heard fun _ => script
  | finished _ => finished ()

/-- A rank that goes on with a script for the rest of `rounds` barriers. -/
def Node.scripted (votes : Nat → Bool) (rounds : Nat) (node : Node α) : Node Unit where
  present := node.present
  activity := node.activity.scripted (.script votes (rounds - node.round) (node.round + 1))
  round := node.round
  inbox := node.inbox
  early := node.early

namespace Network

variable {votes : Nat → Nat → Bool} {rounds r : Nat} {n n' : Network α} {node : Node α}

/-- The network in which every rank goes on with a script. -/
def scripted (votes : Nat → Nat → Bool) (rounds : Nat) (n : Network α) : Network Unit :=
  ⟨n.nodes.mapIdx fun r node => node.scripted (votes r) rounds⟩

theorem nodes_scripted (p : Nat) :
    (n.scripted votes rounds).nodes[p]? = n.nodes[p]?.map (Node.scripted (votes p) rounds) :=
  List.getElem?_mapIdx

theorem nodes_scripted_of (h : n.nodes[r]? = some node) :
    (n.scripted votes rounds).nodes[r]? = some (node.scripted (votes r) rounds) := by
  rw [nodes_scripted, h, Option.map_some]

theorem ext_nodes {m m' : Network α} (h : ∀ p : Nat, m.nodes[p]? = m'.nodes[p]?) : m = m' :=
  congrArg Network.mk (List.ext_getElem? h)

@[simp] theorem world_scripted : (n.scripted votes rounds).world = n.world := List.length_mapIdx

@[simp] theorem peers_scripted : (n.scripted votes rounds).peers r = n.peers r := by
  rw [peers, world_scripted, peers]

@[simp] theorem accepts_scripted : (n.scripted votes rounds).accepts r = n.accepts r := by
  rw [accepts, nodes_scripted, accepts]
  cases n.nodes[r]? <;> rfl

/-- Answers do not depend on what is done with them. -/
theorem answer?_scripted : (n.scripted votes rounds).answer? r = n.answer? r := by
  rw [answer?, answer?, nodes_scripted]
  cases h : n.nodes[r]? with
  | none => rfl
  | some node =>
      simp only [Option.map_some, Node.scripted, peers_scripted]
      cases node.activity with
      | sending ok peers next => cases peers <;> simp only [Activity.scripted, accepts_scripted]
      | hearing ok heard next => simp only [Activity.scripted, accepts_scripted]
      | computing _ | sorting _ _ | finished _ => rfl

/-- A change of a node is one of the scripted node. -/
theorem scripted_update {f : Node α → Node α} {g : Node Unit → Node Unit}
    (h : ∀ node, n.nodes[r]? = some node →
      (f node).scripted (votes r) rounds = g (node.scripted (votes r) rounds)) :
    (n.update r f).scripted votes rounds = (n.scripted votes rounds).update r g := by
  refine ext_nodes fun p => ?_
  rw [nodes_scripted, nodes_update, nodes_update, nodes_scripted]
  by_cases hrp : r = p
  · subst hrp
    rw [if_pos rfl, if_pos rfl]
    cases hr : n.nodes[r]? with
    | none => rfl
    | some node => exact congrArg some (h node hr)
  · rw [if_neg hrp, if_neg hrp]

theorem scripted_deliver (vote : Vote) :
    (n.deliver r vote).scripted votes rounds = (n.scripted votes rounds).deliver r vote :=
  scripted_update fun _ _ => rfl

/-- A vote that is delivered changes an inbox only. -/
theorem exists_of_deliver {p : Nat} {vote : Vote} {node' : Node α}
    (h : (n.deliver p vote).nodes[r]? = some node') :
    ∃ node, n.nodes[r]? = some node ∧ node'.round = node.round ∧
      node'.activity = node.activity := by
  rcases of_nodes_update h with ⟨rfl, node, hr, rfl⟩ | ⟨-, hr⟩
  · exact ⟨node, hr, rfl, rfl⟩
  · exact ⟨node', hr, rfl, rfl⟩

/-! ### On course -/

/-- Nobody has gone away. -/
def Manned (n : Network α) : Prop :=
  ∀ (p : Nat) (node : Node α), n.nodes[p]? = some node → node.present = true

theorem Manned.staffed (h : n.Manned) (k : Nat) : n.Staffed k := by
  intro p node hp hgone
  rw [h p node hp] at hgone
  cases hgone

theorem Manned.scripted (h : n.Manned) : (n.scripted votes rounds).Manned := by
  intro p node' hp
  rw [nodes_scripted] at hp
  obtain ⟨node, hnode, rfl⟩ := Option.map_eq_some_iff.mp hp
  exact h p node hnode

end Network

open RankProgram

section Meeting

variable {world rounds : Nat} {programs : Fin world → RankProgram α} {results : Fin world → α}
  {n n' : Network α}

/-- Where a rank is when it has come to `round` barriers of a meeting. -/
def Activity.OnCourse (programs : Fin world → RankProgram α) (r : Fin world) (round : Nat) :
    Activity α → Prop
  | computing p => stage programs round r = p
  | sending _ _ next | sorting _ next | hearing _ _ next =>
    ∃ k vote, round = k + 1 ∧ stage programs k r = .barrier vote next
  | finished a => stage programs round r = .done a

theorem Activity.OnCourse.of_next? {a : Activity α} {r : Fin world} {round : Nat}
    {next : Except CommError Bool → RankProgram α} (h : a.OnCourse programs r round)
    (hn : a.next? = some next) :
    ∃ k vote, round = k + 1 ∧ stage programs k r = .barrier vote next := by
  cases a with
  | sending _ _ _ | sorting _ _ | hearing _ _ _ =>
      cases hn
      exact h
  | computing _ | finished _ => cases hn

/-- A node that is where a meeting of `rounds` barriers has it. -/
structure Node.OnCourse (programs : Fin world → RankProgram α) (rounds : Nat) (r : Fin world)
    (node : Node α) : Prop where
  round_le : node.round ≤ rounds
  activity : node.activity.OnCourse programs r node.round

/-- Every rank is where a meeting of `rounds` barriers has it. -/
def Network.OnCourse (programs : Fin world → RankProgram α) (rounds : Nat) (n : Network α) : Prop :=
  ∀ (r : Fin world) (node : Node α), n.nodes[r.val]? = some node → node.OnCourse programs rounds r

/-- What a rank is about to do is what its script is. -/
theorem scripted_computing (h : Meet programs rounds results) {r : Fin world} {node : Node α}
    (hnode : node.OnCourse programs rounds r) {p : RankProgram α}
    (hactivity : node.activity = .computing p) :
    script (meetingVotes programs r) (rounds - node.round) (node.round + 1) =
      match p with
      | .done _ => .done ()
      | .barrier vote _ => .barrier vote fun _ =>
        script (meetingVotes programs r) (rounds - (node.round + 1)) (node.round + 2) := by
  have hstage := hnode.activity
  rw [hactivity] at hstage
  cases p with
  | done a =>
      rw [(h.eq_rounds hnode.round_le hstage).1, Nat.sub_self]
      rfl
  | barrier vote next =>
      have hlt := h.lt_rounds hnode.round_le hstage
      have hleft : rounds - node.round = rounds - (node.round + 1) + 1 := by omega
      have hvote : meetingVotes programs r (node.round + 1) = vote := by
        rw [meetingVotes, dif_pos r.isLt, Nat.add_sub_cancel]
        exact congrArg nextVote hstage
      rw [hleft, script, hvote]

/-- A step of a node that is on course is one of the scripted node. -/
theorem Node.scripted_advance (h : Meet programs rounds results) {r : Fin world} {node : Node α}
    (hnode : node.OnCourse programs rounds r) (peers : List Nat) :
    (node.advance peers).scripted (meetingVotes programs r) rounds =
      (node.scripted (meetingVotes programs r) rounds).advance peers := by
  cases hactivity : node.activity with
  | computing p =>
      have hscript := scripted_computing h hnode hactivity
      cases p with
      | done a =>
          rw [advance_done hactivity, advance_done]
          · rfl
          · simp only [scripted, hactivity, Activity.scripted, hscript]
      | barrier vote next =>
          rw [advance_barrier hactivity, advance_barrier]
          · rfl
          · simp only [scripted, hactivity, Activity.scripted, hscript]
  | sending ok peers next =>
      cases peers <;> simp only [advance, scripted, hactivity, Activity.scripted]
  | sorting ok next => simp only [advance, scripted, hactivity, Activity.scripted]
  | hearing ok heard next =>
      cases hinbox : node.inbox with
      | nil => simp only [advance, scripted, hactivity, Activity.scripted, hinbox]
      | cons vote inbox =>
          simp only [advance, scripted, hactivity, Activity.scripted, hinbox]
          split <;> rfl
  | finished a => simp only [advance, scripted, hactivity, Activity.scripted]

/-- Coming back with an answer is going on with the script. -/
theorem Node.scripted_resume (votes : Nat → Bool) (rounds : Nat) (answer : Except CommError Bool)
    (node : Node α) :
    (node.resume answer).scripted votes rounds = (node.scripted votes rounds).resume answer := by
  cases hactivity : node.activity <;>
    simp only [resume, scripted, hactivity, Activity.scripted, Activity.next?]

namespace Network

/-- **A turn of a rank that is on course is a turn of the rank that goes on with its script.** -/
theorem scripted_act (h : Meet programs rounds results) (hc : n.OnCourse programs rounds)
    (hw : n.world = world) (r : Nat) :
    (n.act r).scripted (meetingVotes programs) rounds =
      (n.scripted (meetingVotes programs) rounds).act r := by
  cases hr : n.nodes[r]? with
  | none =>
      rw [act_of_none hr, act_of_none]
      rw [nodes_scripted, hr, Option.map_none]
  | some node =>
      have hcourse := hc ⟨r, hw ▸ lt_world hr⟩ node hr
      have hadvance :
          (n.update r (Node.advance (n.peers r))).scripted (meetingVotes programs) rounds =
            (n.scripted (meetingVotes programs) rounds).update r (Node.advance (n.peers r)) := by
        refine scripted_update fun node' hr' => ?_
        obtain rfl : node' = node := Option.some.inj (hr'.symm.trans hr)
        exact Node.scripted_advance h hcourse _
      cases hp : node.present with
      | false => rw [act_of_gone hr hp, act_of_gone (nodes_scripted_of hr) hp]
      | true =>
          have hscripted : (node.scripted (meetingVotes programs r) rounds).present = true := hp
          rw [act, act, hr, nodes_scripted_of hr]
          simp only [hp, hscripted, answer?_scripted, peers_scripted, Bool.not_true,
            Bool.false_eq_true, if_false]
          cases n.answer? r with
          | some answer => exact scripted_update fun _ _ => Node.scripted_resume _ _ answer _
          | none =>
              rcases hactivity : node.activity with program | ⟨ok, _ | ⟨peer, peers⟩, next⟩ |
                  ⟨ok, next⟩ | ⟨ok, heard, next⟩ | a <;>
                simp only [Node.scripted, hactivity, Activity.scripted]
              case sending.cons =>
                rw [← scripted_deliver]
                refine scripted_update fun sender hsender => ?_
                obtain ⟨node', hr', hround, -⟩ := exists_of_deliver hsender
                obtain rfl : node = node' := Option.some.inj (hr.symm.trans hr')
                simp only [Node.scripted, Activity.scripted, hround]
              all_goals exact hadvance

/-! ### Staying on course -/

theorem OnCourse.update (hc : n.OnCourse programs rounds) {r : Fin world} {f : Node α → Node α}
    (hf : ∀ node, n.nodes[r.val]? = some node → (f node).OnCourse programs rounds r) :
    (n.update r f).OnCourse programs rounds := by
  intro p node hp
  rcases of_nodes_update hp with ⟨hpr, before, hbefore, rfl⟩ | ⟨-, hp⟩
  · obtain rfl : p = r := Fin.ext hpr
    exact hf before hbefore
  · exact hc p node hp

/-- **Every answer is the one of the meeting.** -/
theorem OnCourse.answer_eq (hc : n.OnCourse programs rounds) (hw : n.world = world)
    (hm : n.Manned)
    (hscripts : Reached (scripts programs rounds) (n.scripted (meetingVotes programs) rounds))
    {r : Fin world} {node : Node α} (hr : n.nodes[r.val]? = some node)
    {answer : Except CommError Bool} (ha : n.answer? r = some answer) :
    ∃ k vote next, node.round = k + 1 ∧ stage programs k r = .barrier vote next ∧
      node.activity.next? = some next ∧ answer = .ok (unanimous (stage programs k)) := by
  obtain ⟨-, next, hnext⟩ := next?_of_answer? hr ha
  obtain ⟨k, vote, hround, hstage⟩ := (hc r node hr).activity.of_next? hnext
  refine ⟨k, vote, next, hround, hstage, hnext, ?_⟩
  obtain ⟨ledger, hbooked⟩ := hscripts.booked (casts_scripts programs rounds) node.round
  rw [← answer?_scripted] at ha
  cases answer with
  | error e =>
      -- nobody is missing, so that no barrier fails
      obtain ⟨node', hr', hlt⟩ := hbooked.lt_round_of_error (hm.scripted.staffed _) ha
      rw [nodes_scripted_of hr] at hr'
      cases hr'
      exact absurd hlt (Nat.lt_irrefl _)
  | ok v =>
      obtain ⟨node', hr', -, hv⟩ := hbooked.of_answer?_ok ha
      rw [nodes_scripted_of hr] at hr'
      cases hr'
      refine congrArg Except.ok (Bool.eq_iff_iff.mpr ?_)
      rw [hv, unanimous, decide_eq_true_eq, world_scripted, hw]
      have hvotes : ∀ p : Fin world,
          meetingVotes programs p (k + 1) = (stage programs k p).nextVote := fun p => dif_pos p.isLt
      constructor
      · intro hall p
        rw [← hvotes, ← hround]
        exact hall p p.isLt
      · intro hall p hp
        show meetingVotes programs p node.round = true
        rw [hround]
        exact (hvotes ⟨p, hp⟩).trans (hall ⟨p, hp⟩)

/-- **A turn keeps every rank on course**, when it does not answer but as the meeting does. -/
theorem OnCourse.turn (h : Meet programs rounds results) (hc : n.OnCourse programs rounds)
    {r : Fin world} {node : Node α} (hr : n.nodes[r.val]? = some node)
    (hanswer : ∀ answer, n.answer? r = some answer → ∃ k vote next, node.round = k + 1 ∧
      stage programs k r = .barrier vote next ∧ node.activity.next? = some next ∧
      answer = .ok (unanimous (stage programs k)))
    (ht : n.Turn r node n') : n'.OnCourse programs rounds := by
  obtain ⟨hround, hcourse⟩ := hc r node hr
  cases ht with
  | finish hactivity =>
      rw [hactivity] at hcourse
      exact hc.update fun _ _ => ⟨hround, hcourse⟩
  | start hactivity =>
      rw [hactivity] at hcourse
      exact hc.update fun _ _ => ⟨h.lt_rounds hround hcourse, ⟨_, _, rfl, hcourse⟩⟩
  | @send ok peer peers next hactivity haccepts =>
      rw [hactivity] at hcourse
      have hdelivered : (n.deliver peer ⟨node.round, ok⟩).OnCourse programs rounds := by
        intro p node' hp
        obtain ⟨before, hbefore, hsame, hsame'⟩ := exists_of_deliver hp
        refine ⟨hsame ▸ (hc p before hbefore).round_le, ?_⟩
        rw [hsame, hsame']
        exact (hc p before hbefore).activity
      refine hdelivered.update fun sender hsender => ?_
      obtain ⟨node', hr', hsame, -⟩ := exists_of_deliver hsender
      obtain rfl : node = node' := Option.some.inj (hr.symm.trans hr')
      exact ⟨hsame.symm ▸ hround, hsame.symm ▸ hcourse⟩
  | sent hactivity | sort hactivity | hear hactivity _ _ =>
      rw [hactivity] at hcourse
      exact hc.update fun _ _ => ⟨hround, hcourse⟩
  | keep hactivity _ _ => exact hc.update fun _ _ => ⟨hround, hcourse⟩
  | @resume answer next ha hn =>
      obtain ⟨k, vote, next', hk, hstage, hn', rfl⟩ := hanswer answer ha
      obtain rfl : next = next' := Option.some.inj (hn.symm.trans hn')
      refine hc.update fun _ _ => ⟨hround, ?_⟩
      show stage programs node.round r = _
      rw [hk, stage, answered, hstage, told]
  | wait _ => exact hc

/-! ### Whatever is reached -/

/-- What does not take ranks away or bring them back. -/
theorem present_update {f : Node α → Node α} {r : Nat}
    (hf : ∀ node, n.nodes[r]? = some node → (f node).present = node.present) (p : Nat) :
    ((n.update r f).nodes[p]?).map Node.present = (n.nodes[p]?).map Node.present := by
  rw [nodes_update]
  by_cases hrp : r = p
  · subst hrp
    rw [if_pos rfl]
    cases hr : n.nodes[r]? with
    | none => rfl
    | some node => exact congrArg some (hf node hr)
  · rw [if_neg hrp]

theorem present_turn {r : Nat} {node : Node α} (hr : n.nodes[r]? = some node)
    (ht : n.Turn r node n') (p : Nat) :
    (n'.nodes[p]?).map Node.present = (n.nodes[p]?).map Node.present := by
  have honly : ∀ node', n.nodes[r]? = some node' → node.present = node'.present := by
    intro node' hr'
    rw [Option.some.inj (hr.symm.trans hr')]
  cases ht with
  | send _ _ =>
      refine (present_update ?_ p).trans (present_update ?_ p)
      · exact fun _ _ => rfl
      · exact fun _ _ => rfl
  | wait _ => rfl
  | _ =>
      refine present_update ?_ p
      exact honly

/-- Nobody comes back who has gone away. -/
theorem Manned.of_move (hn' : n'.Manned) (hm : n.Move n') : n.Manned := by
  intro p node hp
  have hsame : ∀ {present : Bool}, (n'.nodes[p]?).map Node.present = some present →
      present = true := by
    intro present hpresent
    obtain ⟨node', hp', rfl⟩ := Option.map_eq_some_iff.mp hpresent
    exact hn' p node' hp'
  cases hm with
  | act r =>
      refine hsame ?_
      cases hr : n.nodes[r]? with
      | none => rw [act_of_none hr, hp, Option.map_some]
      | some before =>
          cases hpresent : before.present with
          | false => rw [act_of_gone hr hpresent, hp, Option.map_some]
          | true => rw [present_turn hr (turn_of_act hr hpresent), hp, Option.map_some]
  | drop r =>
      by_cases hrp : r = p
      · subst hrp
        have hgone : false = true := hsame (by rw [drop, nodes_update, if_pos rfl, hp]; rfl)
        cases hgone
      · refine hsame ?_
        rw [drop, nodes_update, if_neg hrp, hp, Option.map_some]
  | shuffle r _ _ =>
      refine hsame (Eq.trans (present_update ?_ p) (by rw [hp, Option.map_some]))
      exact fun _ _ => rfl

/-- At first everyone is there. -/
theorem manned_ofPrograms (programs : List (RankProgram α)) : (ofPrograms programs).Manned := by
  intro r node hr
  rw [ofPrograms, List.getElem?_map] at hr
  obtain ⟨program, -, rfl⟩ := Option.map_eq_some_iff.mp hr
  rfl

/-- And everyone is at the beginning. -/
theorem onCourse_ofPrograms : (ofPrograms (List.ofFn programs)).OnCourse programs rounds := by
  intro r node hr
  simp only [ofPrograms, List.getElem?_map, List.getElem?_ofFn, r.isLt, dif_pos, Option.map_some,
    Option.some.injEq] at hr
  subst hr
  exact ⟨Nat.zero_le _, rfl⟩

theorem scripted_ofPrograms :
    (ofPrograms (List.ofFn programs)).scripted (meetingVotes programs) rounds =
      ofPrograms (scripts programs rounds) := by
  refine ext_nodes fun p => ?_
  rw [nodes_scripted]
  simp only [ofPrograms, scripts, List.getElem?_map, List.getElem?_ofFn]
  split <;> rfl

/-- There are as many nodes as programs. -/
theorem Reached.world_ofFn (hn : Reached (List.ofFn programs) n) : n.world = world :=
  hn.world_eq.trans List.length_ofFn

/-- **Whatever is reached while nobody goes away is on course**, and the same can be reached by
ranks that follow their scripts. -/
theorem Reached.onCourse (h : Meet programs rounds results)
    (hn : Reached (List.ofFn programs) n) (hm : n.Manned) :
    n.OnCourse programs rounds ∧
      Reached (scripts programs rounds) (n.scripted (meetingVotes programs) rounds) := by
  induction hn with
  | refl =>
      rw [scripted_ofPrograms]
      exact ⟨onCourse_ofPrograms, .refl⟩
  | @tail n n' hn hmove ih =>
      have hbefore := hm.of_move hmove
      obtain ⟨hc, hscripts⟩ := ih hbefore
      have hw : n.world = world := Reached.world_ofFn hn
      cases hmove with
      | act r =>
          rw [scripted_act h hc hw]
          refine ⟨?_, hscripts.tail (.act r)⟩
          cases hr : n.nodes[r]? with
          | none => rwa [act_of_none hr]
          | some node =>
              exact hc.turn h (r := ⟨r, hw ▸ lt_world hr⟩) hr
                (fun answer ha => hc.answer_eq hw hbefore hscripts hr ha)
                (turn_of_act hr (hbefore r node hr))
      | drop r =>
          -- there is no such rank
          have hnone : n.nodes[r]? = none := by
            by_contra hsome
            obtain ⟨node, hr⟩ := Option.ne_none_iff_exists'.mp hsome
            have hpresent := hm r { node with present := false } (by
              rw [drop, nodes_update, if_pos rfl, hr, Option.map_some])
            cases hpresent
          rw [drop, update_of_none hnone]
          exact ⟨hc, hscripts⟩
      | @shuffle r node inbox hr order =>
          rw [scripted_update (g := fun node => { node with inbox }) fun _ _ => rfl]
          exact ⟨hc.update (r := ⟨r, hw ▸ lt_world hr⟩) fun node' hr' =>
            ⟨(hc _ node' hr').round_le, (hc _ node' hr').activity⟩,
            hscripts.tail (.shuffle r (nodes_scripted_of hr) order)⟩

/-- **Who has finished has come to its result in the meeting**, after all of its barriers. -/
theorem OnCourse.eq_results (h : Meet programs rounds results) (hc : n.OnCourse programs rounds)
    {r : Fin world} {node : Node α} (hr : n.nodes[r.val]? = some node) {a : α}
    (ha : node.activity = .finished a) : node.round = rounds ∧ a = results r := by
  obtain ⟨hround, hcourse⟩ := hc r node hr
  rw [ha] at hcourse
  exact h.eq_rounds hround hcourse

end Network

end Meeting

end ParticleSim
