import ParticleSim.Checkpoint.Error

/-!
# Ranks — Computations that meet at barriers

The ranks of a run are processes that compute each for itself and meet at barriers.  At a barrier
every rank casts a vote and learns whether all votes were in favour, or that the connection is gone.

* `RankProgram` is the computation of one rank, cut at its barriers, so that it can be run by
  whatever connects the ranks.
* `Communicator` is a connection seen from one rank: its answer to the vote of each round.
  `Communicator.alone` is the connection of a single process.
-/

namespace ParticleSim

/-- A computation that may stop at a barrier with a vote and go on with the answer. -/
inductive RankProgram (α : Type) where
  | done (a : α)
  | barrier (vote : Bool) (next : Except CommError Bool → RankProgram α)

namespace RankProgram

variable {α β γ : Type}

/-- Go on with the result of a computation. -/
def bind : RankProgram α → (α → RankProgram β) → RankProgram β
  | done a, f => f a
  | barrier vote next, f => barrier vote fun answer => bind (next answer) f

instance : Monad RankProgram where
  pure := done
  bind := bind

theorem bind_done (p : RankProgram α) : p.bind done = p := by
  induction p with
  | done a => rfl
  | barrier vote next ih => exact congrArg (barrier vote) (funext ih)

theorem bind_assoc (p : RankProgram α) (f : α → RankProgram β) (g : β → RankProgram γ) :
    (p.bind f).bind g = p.bind fun a => (f a).bind g := by
  induction p with
  | done a => rfl
  | barrier vote next ih => exact congrArg (barrier vote) (funext ih)

instance : LawfulMonad RankProgram :=
  LawfulMonad.mk' RankProgram bind_done (fun _ _ => rfl) bind_assoc

/-- Cast a vote. -/
def vote (ok : Bool) : RankProgram (Except CommError Bool) := barrier ok done

/-- Cast votes at one barrier after the other; the answers in order. -/
def castAll : List Bool → RankProgram (List (Except CommError Bool))
  | [] => done []
  | ok :: votes => barrier ok fun answer => bind (castAll votes) fun answers => done (answer :: answers)

/-- Run against given answers; `round` barriers are already behind. -/
def run (answer : Nat → Bool → Except CommError Bool) : (round : Nat) → RankProgram α → α
  | _, done a => a
  | round, barrier vote next => run answer (round + 1) (next (answer round vote))

end RankProgram

/-- The connection of one rank to the others. -/
structure Communicator where
  rank : UInt32
  /-- How many ranks there are. -/
  world : UInt32
  /-- What a vote in a given round learns; rounds count from `0`. -/
  answer : Nat → Bool → Except CommError Bool

/-- A process without peers hears its own vote. -/
def Communicator.alone : Communicator := ⟨0, 1, fun _ vote => .ok vote⟩

end ParticleSim
