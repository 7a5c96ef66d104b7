import ParticleSim.Rank.Barrier

/-!
# Ranks — A network of ranks in one process

Each rank has an inbox.  At its `k`-th barrier a rank sends its vote, marked with the round `k`, to
every peer in turn, and then hears votes until it has one of round `k` from each of them.  A peer
may be one barrier ahead, so votes of another round are set aside for later (`Node.early`).

* `Network.act` lets one rank take its next step: start a barrier, send one vote, look through the
  votes set aside, hear one vote, or return with an answer (`Network.answer?`).  A rank that waits
  for a vote stays as it is.
* `Network.drop` takes a rank away.  Its inbox no longer accepts votes, and who sends one learns so;
  the votes it has sent before stay where they are.  A rank that has heard all there is and has no
  peer left learns that, too.
* A schedule is any list of such events, and `Network.follow` is what comes of it.
-/

namespace ParticleSim

/-- A vote on its way. -/
structure Vote where
  round : Nat
  ok : Bool
deriving DecidableEq

/-- Where a rank is. -/
inductive Activity (α : Type) where
  /-- Outside of a barrier. -/
  | computing (program : RankProgram α)
  /-- Inside, with votes still to send. -/
  | sending (ok : Bool) (peers : List Nat) (next : Except CommError Bool → RankProgram α)
  /-- Inside, about to look through the votes set aside. -/
  | sorting (ok : Bool) (next : Except CommError Bool → RankProgram α)
  /-- Inside, with `heard` votes of this round, all of which and its own conjoin to `ok`. -/
  | hearing (ok : Bool) (heard : Nat) (next : Except CommError Bool → RankProgram α)
  | finished (a : α)

/-- What a rank inside of a barrier does with the answer. -/
def Activity.next? {α : Type} : Activity α → Option (Except CommError Bool → RankProgram α)
  | sending _ _ next | sorting _ next | hearing _ _ next => some next
  | computing _ | finished _ => none

/-- A rank of the network. -/
structure Node (α : Type) where
  /-- Whether the rank is there; one that is gone takes no steps and accepts no votes. -/
  present : Bool
  activity : Activity α
  /-- How many barriers the rank has come to. -/
  round : Nat
  /-- Votes received and not heard yet, in the order of their arrival. -/
  inbox : List Vote
  /-- Votes heard in a round that they do not belong to. -/
  early : List Vote

namespace Node

variable {α : Type}

/-- Leave a barrier with an answer. -/
def resume (answer : Except CommError Bool) (node : Node α) : Node α :=
  match node.activity.next? with
  | some next => { node with activity := .computing (next answer) }
  | none => node

/-- The next step of a node that neither involves another one nor leaves a barrier; `peers` are the
other ranks. -/
def advance (peers : List Nat) (node : Node α) : Node α :=
  match node.activity with
  | .computing (.done a) => { node with activity := .finished a }
  | .computing (.barrier vote next) =>
    { node with activity := .sending vote peers next, round := node.round + 1 }
  | .sending ok [] next => { node with activity := .sorting ok next }
  | .sorting ok next =>
    let (mine, others) := node.early.partition (·.round = node.round)
    { node with
      activity := .hearing (ok && mine.all Vote.ok) mine.length next
      early := others }
  | .hearing ok heard next =>
    match node.inbox with
    | [] => node
    | vote :: inbox =>
      if vote.round = node.round then
        { node with activity := .hearing (ok && vote.ok) (heard + 1) next, inbox }
      else { node with inbox, early := node.early ++ [vote] }
  | .sending _ (_ :: _) _ | .finished _ => node

end Node

/-- The ranks by number. -/
structure Network (α : Type) where
  nodes : List (Node α)

namespace Network

variable {α : Type}

/-- Ranks that are all at the beginning of their programs. -/
def ofPrograms (programs : List (RankProgram α)) : Network α :=
  ⟨programs.map fun p => ⟨true, .computing p, 0, [], []⟩⟩

def world (n : Network α) : Nat := n.nodes.length

/-- The peers of a rank, in rising order. -/
def peers (n : Network α) (rank : Nat) : List Nat := (List.range n.world).filter (· ≠ rank)

/-- Change the node of a rank. -/
def update (n : Network α) (rank : Nat) (f : Node α → Node α) : Network α :=
  ⟨n.nodes.modify rank f⟩

/-- Whether a vote sent to a rank arrives. -/
def accepts (n : Network α) (rank : Nat) : Bool := (n.nodes[rank]?).any (·.present)

/-- Put a vote into the inbox of a rank. -/
def deliver (n : Network α) (rank : Nat) (vote : Vote) : Network α :=
  n.update rank fun node => { node with inbox := node.inbox ++ [vote] }

/-- The answer with which the next step of a rank leaves a barrier, if it does. -/
def answer? (n : Network α) (rank : Nat) : Option (Except CommError Bool) :=
  match n.nodes[rank]? with
  | none => none
  | some node =>
    if !node.present then none
    else
      match node.activity with
      | .sending _ (peer :: _) _ =>
        if n.accepts peer then none else some (.error (.disconnected (some (.ofNat peer))))
      | .hearing ok heard _ =>
        if (n.peers rank).length ≤ heard then some (.ok ok)
        else if node.inbox.isEmpty && (n.peers rank).all (fun peer => !n.accepts peer) then
          some (.error (.disconnected none))
        else none
      | _ => none

/-- Let a rank take its next step. -/
def act (n : Network α) (rank : Nat) : Network α :=
  match n.nodes[rank]? with
  | none => n
  | some node =>
    if !node.present then n
    else
      match n.answer? rank, node.activity with
      | some answer, _ => n.update rank (Node.resume answer)
      | none, .sending ok (peer :: peers) next =>
        (n.deliver peer ⟨node.round, ok⟩).update rank fun node =>
          { node with activity := .sending ok peers next }
      | none, _ => n.update rank (Node.advance (n.peers rank))

/-- Take a rank away. -/
def drop (n : Network α) (rank : Nat) : Network α :=
  n.update rank fun node => { node with present := false }

/-- What may happen next. -/
inductive Event where
  | act (rank : Nat)
  | drop (rank : Nat)
deriving DecidableEq

/-- One event. -/
def step (n : Network α) : Event → Network α
  | .act rank => n.act rank
  | .drop rank => n.drop rank

/-- What comes of a schedule. -/
def follow (n : Network α) (schedule : List Event) : Network α := schedule.foldl step n

/-- The schedule in which every rank acts in turn, `laps` times over. -/
def turns (world : Nat) : (laps : Nat) → List Event
  | 0 => []
  | laps + 1 => (List.range world).map Event.act ++ turns world laps

/-- The result of a rank that has finished. -/
def result? (n : Network α) (rank : Nat) : Option α :=
  match n.nodes[rank]? with
  | some node => match node.activity with
    | .finished a => some a
    | _ => none
  | none => none

/-- How many laps are enough for programs of at most `barriers` barriers, even if in each of them a
single rank gets on by a single step: at each barrier a rank starts, sends to all, sorts, hears from
all and returns, and in the end it finishes. -/
def lapsFor (world barriers : Nat) : Nat := world * (barriers * (2 * world + 4) + 1)

end Network

end ParticleSim
