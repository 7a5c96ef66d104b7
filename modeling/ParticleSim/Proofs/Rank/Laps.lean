import ParticleSim.Proofs.Rank.Conclusion

/-!
# Ranks — Laps

Ranks whose programs come to a bounded number of barriers, whatever the answers
(`RankProgram.AtMost`), have a bounded number of steps to take (`Network.Bounded.ahead`,
`Network.toil_act`).  When all of them act in turn, somebody gets on in every lap, or nobody can any
more (`Network.toil_lap`); so they come to rest, whoever is missing.

* `Network.settled_lapsFor`: after `Network.lapsFor` laps nobody can take a step that changes
  anything.
* `RankProgram.Concludes.result_lapsFor`: if nobody is missing and the programs come to a result
  together, everybody has it by then.
-/

namespace ParticleSim

open RankProgram

variable {α β : Type}

/-! ### Programs of a bounded number of barriers -/

namespace RankProgram

/-- A program that comes to at most `k` barriers, whatever the answers. -/
inductive AtMost : (k : Nat) → RankProgram α → Prop where
  | done {k : Nat} (a : α) : AtMost k (.done a)
  | barrier {k : Nat} {vote : Bool} {next : Except CommError Bool → RankProgram α}
      (h : ∀ answer, AtMost k (next answer)) : AtMost (k + 1) (.barrier vote next)

variable {k l : Nat} {p : RankProgram α}

theorem AtMost.mono (h : p.AtMost k) (hle : k ≤ l) : p.AtMost l := by
  induction h generalizing l with
  | done a => exact .done a
  | barrier _ ih =>
      obtain ⟨l, rfl⟩ := Nat.exists_eq_add_one_of_ne_zero (Nat.ne_zero_of_lt hle)
      exact .barrier fun answer => ih answer (Nat.le_of_succ_le_succ hle)

theorem AtMost.bind {f : α → RankProgram β} (h : p.AtMost k) (hf : ∀ a, (f a).AtMost l) :
    (p.bind f).AtMost (k + l) := by
  induction h with
  | done a => exact (hf a).mono (Nat.le_add_left l _)
  | @barrier k _ _ _ ih =>
      rw [Nat.add_right_comm]
      exact .barrier ih

theorem AtMost.counted (h : p.AtMost k) : p.counted.AtMost k := by
  induction h with
  | done a => exact .done _
  | barrier _ ih => exact .barrier fun answer => (ih answer).bind (l := 0) fun _ => .done _

theorem castAll_atMost (oks : List Bool) : (castAll oks).AtMost oks.length := by
  induction oks with
  | nil => exact .done _
  | cons ok oks ih => exact .barrier fun answer => ih.bind (l := 0) fun answers => .done _

end RankProgram

/-- A rank that comes to at most `k` barriers more. -/
def Activity.AtMost (k : Nat) : Activity α → Prop
  | computing program => program.AtMost k
  | sending _ _ next | sorting _ next | hearing _ _ next => ∀ answer, (next answer).AtMost k
  | finished _ => True

/-- A rank that comes to at most `rounds` barriers in all. -/
structure Node.Bounded (rounds : Nat) (node : Node α) : Prop where
  round_le : node.round ≤ rounds
  activity : node.activity.AtMost (rounds - node.round)

namespace Network

/-- Ranks that come to at most `rounds` barriers each. -/
def Bounded (rounds : Nat) (n : Network α) : Prop :=
  ∀ (r : Nat) (node : Node α), n.nodes[r]? = some node → node.Bounded rounds

variable {rounds r : Nat} {n n' : Network α} {node : Node α}

namespace Bounded

theorem update (h : n.Bounded rounds) {f : Node α → Node α}
    (hf : ∀ node, n.nodes[r]? = some node → (f node).Bounded rounds) :
    (n.update r f).Bounded rounds := by
  intro p node hp
  rcases of_nodes_update hp with ⟨rfl, before, hbefore, rfl⟩ | ⟨-, hp⟩
  · exact hf before hbefore
  · exact h p node hp

/-- What is in the inboxes is of no account. -/
theorem deliver (h : n.Bounded rounds) (vote : Vote) : (n.deliver r vote).Bounded rounds :=
  h.update fun node hr => ⟨(h r node hr).round_le, (h r node hr).activity⟩

/-- Who comes to a barrier has it ahead. -/
theorem ahead (h : n.Bounded rounds) : n.Ahead rounds := by
  intro r node vote next hr hactivity
  have hprogram := (h r node hr).activity
  rw [hactivity, Activity.AtMost] at hprogram
  generalize hk : rounds - node.round = k at hprogram
  cases hprogram
  omega

/-- **A turn uses up no barrier but one that the rank has ahead.** -/
theorem turn (h : n.Bounded rounds) (hr : n.nodes[r]? = some node) (ht : n.Turn r node n') :
    n'.Bounded rounds := by
  obtain ⟨hround, hactivity⟩ := h r node hr
  cases ht with
  | finish _ => exact h.update fun _ _ => ⟨hround, trivial⟩
  | @start vote next hstart =>
      have hlt := h.ahead r node vote next hr hstart
      rw [hstart, Activity.AtMost] at hactivity
      refine h.update fun _ _ => ⟨hlt, ?_⟩
      show ∀ answer, (next answer).AtMost (rounds - (node.round + 1))
      generalize hk : rounds - node.round = k at hactivity
      cases hactivity with
      | barrier hnext =>
          rw [← Nat.sub_sub, hk]
          exact hnext
  | @send ok peer peers next hsend haccepts =>
      refine (h.deliver (r := peer) ⟨node.round, ok⟩).update fun sender hsender => ?_
      obtain ⟨node', hr', hsame, -⟩ := exists_of_deliver hsender
      obtain rfl : node = node' := Option.some.inj (hr.symm.trans hr')
      rw [hsend, ← hsame] at hactivity
      exact ⟨hsame ▸ hround, hactivity⟩
  | sent hsent | sort hsent | hear hsent _ _ =>
      rw [hsent] at hactivity
      exact h.update fun _ _ => ⟨hround, hactivity⟩
  | keep _ _ _ => exact h.update fun _ _ => ⟨hround, hactivity⟩
  | @resume answer next _ hnext =>
      refine h.update fun _ _ => ⟨hround, ?_⟩
      show (next answer).AtMost (rounds - node.round)
      cases ha : node.activity with
      | computing _ | finished _ => rw [ha] at hnext; cases hnext
      | sending _ _ _ | sorting _ _ | hearing _ _ _ =>
          rw [ha] at hactivity hnext
          cases hnext
          exact hactivity answer
  | wait _ => exact h

theorem act (h : n.Bounded rounds) (r : Nat) : (n.act r).Bounded rounds := by
  cases hr : n.nodes[r]? with
  | none => rwa [act_of_none hr]
  | some node =>
      cases hp : node.present with
      | false => rwa [act_of_gone hr hp]
      | true => exact h.turn hr (turn_of_act hr hp)

theorem follow_acts (h : n.Bounded rounds) (ranks : List Nat) :
    (n.follow (ranks.map .act)).Bounded rounds :=
  Network.follow_acts (fun _ r h => h.act r) h ranks

/-- Whatever happens, there are no more steps to take than before. -/
theorem move (h : n.Bounded rounds) (hm : n.Move n') :
    n'.Bounded rounds ∧ n'.toil rounds ≤ n.toil rounds := by
  cases hm with
  | act r =>
      refine ⟨h.act r, ?_⟩
      by_cases hr : n.act r = n
      · rw [hr]
      · exact Nat.le_of_lt (toil_act h.ahead hr)
  | drop r =>
      refine ⟨h.update fun node hr => ⟨(h r node hr).round_le, (h r node hr).activity⟩, ?_⟩
      cases hr : n.nodes[r]? with
      | none => rw [Network.drop, update_of_none hr]
      | some node =>
          have hsum := sum_update (Node.toil n.world rounds) hr fun node =>
            { node with present := false }
          rw [Network.drop, toil, toil, world_update]
          exact Nat.le_of_eq (Nat.add_right_cancel hsum)
  | @shuffle r node inbox hr order =>
      refine ⟨h.update fun node hr => ⟨(h r node hr).round_le, (h r node hr).activity⟩, ?_⟩
      have hsum := sum_update (Node.toil n.world rounds) hr fun node => { node with inbox }
      have hsame : Node.toil n.world rounds { node with inbox } =
          Node.toil n.world rounds node := by
        rw [Node.toil, Node.toil, order.length_eq]
      rw [toil, toil, world_update]
      omega

end Bounded

theorem bounded_ofPrograms {programs : List (RankProgram α)}
    (hp : ∀ p ∈ programs, p.AtMost rounds) : (ofPrograms programs).Bounded rounds := by
  intro r node hr
  rw [ofPrograms, List.getElem?_map] at hr
  obtain ⟨program, hprogram, rfl⟩ := Option.map_eq_some_iff.mp hr
  exact ⟨Nat.zero_le _, hp program (List.mem_of_getElem? hprogram)⟩

/-- The steps of all ranks are those of one rank, times as many. -/
theorem toil_ofPrograms (programs : List (RankProgram α)) :
    (ofPrograms programs).toil rounds = lapsFor programs.length rounds := by
  have hnode : ∀ p : RankProgram α,
      Node.toil programs.length rounds ⟨true, .computing p, 0, [], []⟩ =
        rounds * (2 * programs.length + 4) + 1 := fun _ => rfl
  simp only [toil, ofPrograms, world, List.length_map, List.map_map, Function.comp_def, hnode,
    List.map_const', List.sum_replicate_nat, lapsFor]

theorem Reached.bounded {programs : List (RankProgram α)} (hn : Reached programs n)
    (hp : ∀ p ∈ programs, p.AtMost rounds) :
    n.Bounded rounds ∧ n.toil rounds ≤ lapsFor programs.length rounds := by
  induction hn with
  | refl => exact ⟨bounded_ofPrograms hp, Nat.le_of_eq (toil_ofPrograms programs)⟩
  | tail _ hmove ih =>
      obtain ⟨hbounded, hle⟩ := ih.1.move hmove
      exact ⟨hbounded, hle.trans ih.2⟩

/-! ### Laps -/

/-- Nobody can take a step that changes anything. -/
def Settled (n : Network α) : Prop := ∀ r, n.act r = n

theorem Settled.follow_acts (h : n.Settled) (ranks : List Nat) :
    n.follow (ranks.map .act) = n :=
  Network.follow_acts (P := (· = n)) (fun _ r he => he ▸ h r) rfl ranks

/-- **Turns leave no more to do**, and less if one of these ranks could go on before them. -/
theorem toil_lap (h : n.Bounded rounds) (ranks : List Nat) :
    (n.follow (ranks.map .act)).toil rounds ≤ n.toil rounds ∧
      ((∃ r ∈ ranks, n.act r ≠ n) →
        (n.follow (ranks.map .act)).toil rounds < n.toil rounds) := by
  induction ranks generalizing n with
  | nil => exact ⟨Nat.le_refl _, fun ⟨_, hr, _⟩ => absurd hr List.not_mem_nil⟩
  | cons r ranks ih =>
      show ((n.act r).follow (ranks.map .act)).toil rounds ≤ _ ∧ (_ →
        ((n.act r).follow (ranks.map .act)).toil rounds < _)
      obtain ⟨hle, hlt⟩ := ih (h.act r)
      by_cases hr : n.act r = n
      · rw [hr] at hle hlt ⊢
        refine ⟨hle, fun ⟨p, hp, hne⟩ => hlt ⟨p, ?_, hne⟩⟩
        exact (List.mem_cons.mp hp).resolve_left fun hpr => hne (hpr ▸ hr)
      · have hless := Nat.lt_of_le_of_lt hle (toil_act h.ahead hr)
        exact ⟨Nat.le_of_lt hless, fun _ => hless⟩

theorem world_follow (n : Network α) (schedule : List Event) :
    (n.follow schedule).world = n.world := by
  induction schedule generalizing n with
  | nil => rfl
  | cons event schedule ih =>
      refine (ih (n.step event)).trans ?_
      cases event with
      | act r => exact (Move.act r).world_eq
      | drop r => exact (Move.drop r).world_eq

/-- Laps are turns, one rank after the other. -/
theorem turns_eq_map (world laps : Nat) :
    turns world laps = (List.replicate laps (List.range world)).flatten.map .act := by
  induction laps with
  | zero => rfl
  | succ laps ih =>
      rw [turns, ih, List.replicate_succ, List.flatten_cons, List.map_append]

/-- **After as many laps as there are steps to take nobody can go on.** -/
theorem settled_turns (h : n.Bounded rounds) {laps : Nat} (hlaps : n.toil rounds ≤ laps) :
    (n.follow (turns n.world laps)).Settled := by
  induction laps generalizing n with
  | zero =>
      intro r
      by_contra hne
      exact absurd (toil_act h.ahead hne) (by omega)
  | succ laps ih =>
      by_cases hsettled : n.Settled
      · rw [turns_eq_map, hsettled.follow_acts]
        exact hsettled
      · obtain ⟨r, hr⟩ := not_forall.mp hsettled
        have hlt : r < n.world := by
          by_contra hnone
          exact hr (act_of_none (List.getElem?_eq_none (Nat.le_of_not_lt hnone)))
        have hless := (toil_lap h (List.range n.world)).2 ⟨r, List.mem_range.mpr hlt, hr⟩
        have hrest := ih (h.follow_acts (List.range n.world)) (by omega)
        rw [world_follow] at hrest
        rw [turns, follow, List.foldl_append]
        exact hrest

/-- **Ranks that act in turn come to rest**, whatever has happened before and whoever is missing. -/
theorem settled_lapsFor {programs : List (RankProgram α)} (hn : Reached programs n)
    (hp : ∀ p ∈ programs, p.AtMost rounds) :
    (n.follow (turns programs.length (lapsFor programs.length rounds))).Settled := by
  obtain ⟨hbounded, hle⟩ := hn.bounded hp
  rw [← hn.world_eq] at hle ⊢
  exact settled_turns hbounded hle

theorem settled_ofFn {world : Nat} {programs : Fin world → RankProgram α}
    (hn : Reached (List.ofFn programs) n) (hp : ∀ r, (programs r).AtMost rounds) :
    (n.follow (turns world (lapsFor world rounds))).Settled := by
  have hprograms : ∀ p ∈ List.ofFn programs, p.AtMost rounds := by
    intro p hp'
    obtain ⟨r, rfl⟩ := List.mem_ofFn.mp hp'
    exact hp r
  have hsettled := settled_lapsFor hn hprograms
  rwa [List.length_ofFn] at hsettled

/-- Ranks come to rest that cast at most so many votes each. -/
theorem settled_castAll {oks : List (List Bool)} {n : Network (List (Except CommError Bool))}
    (hn : Reached (oks.map castAll) n) (hlength : ∀ votes ∈ oks, votes.length ≤ rounds) :
    (n.follow (turns oks.length (lapsFor oks.length rounds))).Settled := by
  have hprograms : ∀ p ∈ oks.map castAll, p.AtMost rounds := by
    intro p hp
    obtain ⟨votes, hvotes, rfl⟩ := List.mem_map.mp hp
    exact (castAll_atMost votes).mono (hlength votes hvotes)
  have hsettled := settled_lapsFor hn hprograms
  rwa [List.length_map] at hsettled

end Network

/-- **Ranks that come to a result together have it after so many laps**, when nobody is missing. -/
theorem RankProgram.Concludes.result_lapsFor {world rounds barriers : Nat}
    {programs : Fin world → RankProgram α} {results : Fin world → α}
    (h : Concludes programs rounds results) (hb : ∀ r, (programs r).AtMost barriers)
    {n : Network α} (hn : Network.Reached (List.ofFn programs) n) (hm : n.Manned) (r : Fin world) :
    (n.follow (Network.turns world (Network.lapsFor world barriers))).result? r =
      some (results r) := by
  have hsettled := Network.settled_ofFn hn hb
  have hmanned : (n.follow (Network.turns world (Network.lapsFor world barriers))).Manned := by
    rw [Network.turns_eq_map]
    exact hm.follow_acts _
  -- going on with any fair schedule changes nothing, and in the end everybody has the result
  obtain ⟨t, hresults⟩ := h.live _ (Network.follow_reached hn _) hmanned (· % world) fun r t =>
    ⟨world * t + r, Nat.le_trans (Nat.le_mul_of_pos_left t r.pos) (Nat.le_add_right _ _),
      by rw [Nat.mul_add_mod, Nat.mod_eq_of_lt r.isLt]⟩
  rw [Network.turnsUntil_eq_map, hsettled.follow_acts] at hresults
  exact hresults r

end ParticleSim
