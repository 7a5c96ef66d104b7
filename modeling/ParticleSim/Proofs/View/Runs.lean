import ParticleSim.Proofs.Restore.Soundness
import ParticleSim.Proofs.View.Process
import Mathlib.Logic.Relation

/-!
# Views — Runs of a process

Simulations are made and restored, take steps and are built by recipes; views are read, appended
through, and replace what is in their list (`Process.Operation`).  Each of these is made of moves
(`Process.Operation.exists_moves`), whether it succeeds or not.  A run is operations one after the
other, told by the events of their moves (`Process.Runs`).

* `Process.exists_runs_iff`: whatever is done to a process, one operation after the other, is a run.
* `Process.Runs.views_current`: a view that is read shows the list as it is, and is rebuilt exactly
  when it has something to catch up with.
* `Process.Runs.resolve_taken`: a handle resolves to the member it was taken for exactly as long as
  its list is not torn down, and in no other list.
-/

namespace ParticleSim

/-! ### Changes through a view -/

namespace RosterView

variable {F : Family} {α : Type}

/-- The view and the simulation that an operation leaves behind, whether it succeeds or not. -/
def ViewM.leaves (m : ViewM F α) (x : RosterView F × Simulation) : RosterView F × Simulation :=
  match m x with
  | .ok _ x' => x'
  | .error _ x' => x'

theorem append_eq (r : Recipe F) (v : RosterView F) (s : Simulation) :
    append r (v, s) =
      match r.build s with
      | .ok object s' => .ok (.ofList (s'.list F) object) (v.refresh (s'.list F), s')
      | .error e s' => .error e (v, s') := by
  have happly : apply r (v, s) =
      match r.build s with
      | .ok object s' => .ok object (v, s')
      | .error e s' => .error e (v, s') := rfl
  rw [append]
  cases hb : r.build s with
  | ok object s' =>
      rw [hb] at happly
      rw [bind_of_ok happly]
      rfl
  | error e s' =>
      rw [hb] at happly
      exact bind_of_error happly _

theorem extend_cons (r : Recipe F) (rs : List (Recipe F)) (x : RosterView F × Simulation) :
    extend (r :: rs) x =
      match append r x with
      | .ok _ x' => extend rs x'
      | .error e x' => .error e x' := by
  simp only [extend, discard, Functor.discard, Functor.mapConst, Function.comp, Function.const,
    bind, EStateM.bind, EStateM.map]
  cases append r x <;> rfl

theorem leaves_replaceAll (rs : List (Recipe F)) (v : RosterView F) (s : Simulation) :
    (replaceAll rs).leaves (v, s) =
      let x := (extend rs).leaves ({ v with stamp := none }, s.clearList F)
      (x.1.refresh (x.2.list F), x.2) := by
  rw [ViewM.leaves, ViewM.leaves, replaceAll]
  cases extend rs ({ v with stamp := none }, s.clearList F) <;> rfl

/-- A handle that a stock recipe gives out is one of a member of the list as it is left. -/
theorem exists_member_of_append {r : Recipe F} (hr : r.Stock) {x : RosterView F × Simulation}
    {v : RosterView F} {s : Simulation} {h : Handle F} (ha : append r x = .ok h (v, s)) :
    ∃ c ∈ (s.list F).members, h = .ofList (s.list F) c.object := by
  rw [append_eq] at ha
  cases hb : r.build x.2 with
  | error e s' => rw [hb] at ha; cases ha
  | ok object s' =>
      rw [hb] at ha
      cases ha
      obtain ⟨c, rfl, happend, -⟩ := hr.builds.joins hb
      obtain ⟨-, -, hl⟩ := Roster.append_eq_ok.mp happend
      have hlast : c.attach (F.nextId c.kind (x.2.list F).count) (x.2.list F).nextLink ∈
          (s.list F).members := by
        rw [hl]
        exact List.mem_append_right _ (List.mem_singleton_self _)
      exact ⟨_, hlast, rfl⟩

end RosterView

namespace Process

variable {w w' : Process} {t t' : History} {F : Family} {n : Nat}

/-! ### Operations -/

/-- A process with a view and a simulation in their places. -/
def around (before after : List Simulation) (views : (F : Family) → Nat → RosterView F)
    (supply : InstanceSupply) (n : Nat) (x : RosterView F × Simulation) : Process :=
  setView ⟨before ++ x.2 :: after, views, supply⟩ F n x.1

/-- What can be done to a process. -/
inductive Operation : Process → Process → Prop where
  | new {w : Process} (behaviors : Behaviors) :
      Operation w ⟨(Simulation.new behaviors w.supply).1 :: w.simulations, w.views,
        (Simulation.new behaviors w.supply).2⟩
  | restored {w : Process} {σ τ : Type} {s : Simulation} (p : Host)
      (input : Except CheckpointError Bytes) (behaviors : Behaviors)
      (unpickle : Bytes → ControlM σ τ) (layer : σ) (a : τ) (supply : p.supply = w.supply)
      (result : (p.restore input behaviors unpickle layer).result = .ok (s, a)) :
      Operation w ⟨s :: w.simulations, w.views, ⟨w.supply.next + 3⟩⟩
  /-- A restore that fails may have used up list instances. -/
  | spent {w : Process} {next : Nat} (le : w.supply.next ≤ next) :
      Operation w { w with supply := ⟨next⟩ }
  | step {before after : List Simulation} {s s' : Simulation}
      {views : (F : Family) → Nat → RosterView F} {supply : InstanceSupply} (step : s.Step s') :
      Operation ⟨before ++ s :: after, views, supply⟩ ⟨before ++ s' :: after, views, supply⟩
  | recipe {before after : List Simulation} {s : Simulation}
      {views : (F : Family) → Nat → RosterView F} {supply : InstanceSupply} {F : Family}
      (r : Recipe F) (lawful : r.Lawful) :
      Operation ⟨before ++ s :: after, views, supply⟩
        ⟨before ++ r.build.leaves s :: after, views, supply⟩
  /-- Every read of a view begins by bringing it up to date. -/
  | read {w : Process} {s : Simulation} (held : s ∈ w.simulations) (F : Family) (n : Nat) :
      Operation w (w.setView F n ((w.views F n).refresh (s.list F)))
  | append {before after : List Simulation} {views : (F : Family) → Nat → RosterView F}
      {supply : InstanceSupply} {F : Family} {n : Nat} {x : RosterView F × Simulation}
      (r : Recipe F) (lawful : r.Lawful) :
      Operation (around before after views supply n x)
        (around before after views supply n ((RosterView.append r).leaves x))
  | extend {before after : List Simulation} {views : (F : Family) → Nat → RosterView F}
      {supply : InstanceSupply} {F : Family} {n : Nat} {x : RosterView F × Simulation}
      (rs : List (Recipe F)) (lawful : ∀ r ∈ rs, r.Lawful) :
      Operation (around before after views supply n x)
        (around before after views supply n ((RosterView.extend rs).leaves x))
  | replaceAll {before after : List Simulation} {views : (F : Family) → Nat → RosterView F}
      {supply : InstanceSupply} {F : Family} {n : Nat} {x : RosterView F × Simulation}
      (rs : List (Recipe F)) (lawful : ∀ r ∈ rs, r.Lawful) :
      Operation (around before after views supply n x)
        (around before after views supply n ((RosterView.replaceAll rs).leaves x))

/-! ### Operations are made of moves -/

section Around

variable {before after : List Simulation} {views : (F : Family) → Nat → RosterView F}
  {supply : InstanceSupply}

theorem setView_setView (v v' : RosterView F) :
    (w.setView F n v).setView F n v' = w.setView F n v' := by
  simp [setView]

theorem moves_of_course {v : RosterView F} {s s' : Simulation} (h : s.Course t s') :
    Moves (around before after views supply n (v, s)) t
      (around before after views supply n (v, s')) :=
  (Move.changed h).moves

theorem moves_of_refresh (v : RosterView F) (s : Simulation) :
    Moves (around before after views supply n (v, s)) [.looked F n (s.list F).place]
      (around before after views supply n (v.refresh (s.list F), s)) := by
  have hmove := Move.looked (w := around before after views supply n (v, s)) (s := s)
    (by simp [around, setView]) F n
  rw [around, setView_setView, views_setView_self] at hmove
  exact hmove.moves

theorem moves_of_drop (v : RosterView F) (s : Simulation) :
    Moves (around before after views supply n (v, s)) [.dropped F n]
      (around before after views supply n ({ v with stamp := none }, s)) := by
  have hmove := Move.dropped (w := around before after views supply n (v, s)) F n
  rw [around, setView_setView, views_setView_self] at hmove
  exact hmove.moves

theorem exists_moves_append {r : Recipe F} (hr : r.Lawful) (x : RosterView F × Simulation) :
    ∃ t, Moves (around before after views supply n x) t
      (around before after views supply n ((RosterView.append r).leaves x)) := by
  obtain ⟨v, s⟩ := x
  obtain ⟨t, ht⟩ := Simulation.exists_course_of_steps (hr s)
  rw [SimulationM.leaves] at ht
  rw [RosterView.ViewM.leaves, RosterView.append_eq]
  cases hb : r.build s with
  | ok object s' =>
      rw [hb] at ht
      exact ⟨_, (moves_of_course ht).trans (moves_of_refresh v s')⟩
  | error e s' =>
      rw [hb] at ht
      exact ⟨_, moves_of_course ht⟩

theorem exists_moves_extend {rs : List (Recipe F)} (hrs : ∀ r ∈ rs, r.Lawful)
    (x : RosterView F × Simulation) :
    ∃ t, Moves (around before after views supply n x) t
      (around before after views supply n ((RosterView.extend rs).leaves x)) := by
  induction rs generalizing x with
  | nil => exact ⟨_, .refl⟩
  | cons r rs ih =>
      obtain ⟨hr, hrs⟩ := List.forall_mem_cons.mp hrs
      obtain ⟨t, ht⟩ : ∃ t, Moves (around before after views supply n x) t _ :=
        exists_moves_append hr x
      rw [RosterView.ViewM.leaves] at ht
      rw [RosterView.ViewM.leaves, RosterView.extend_cons]
      cases ha : RosterView.append r x with
      | ok h x' =>
          rw [ha] at ht
          obtain ⟨t', ht'⟩ := ih hrs x'
          exact ⟨_, ht.trans ht'⟩
      | error e x' =>
          rw [ha] at ht
          exact ⟨_, ht⟩

theorem exists_moves_replaceAll {rs : List (Recipe F)} (hrs : ∀ r ∈ rs, r.Lawful)
    (x : RosterView F × Simulation) :
    ∃ t, Moves (around before after views supply n x) t
      (around before after views supply n ((RosterView.replaceAll rs).leaves x)) := by
  obtain ⟨v, s⟩ := x
  obtain ⟨t, ht⟩ : ∃ t, Moves (around before after views supply n _) t _ :=
    exists_moves_extend hrs ({ v with stamp := none }, s.clearList F)
  rw [RosterView.leaves_replaceAll]
  exact ⟨_, (((moves_of_course (.of_clearList s F)).trans (moves_of_drop v _)).trans ht).trans
    (moves_of_refresh _ _)⟩

end Around

/-- A new simulation enters with empty lists. -/
theorem moves_new (w : Process) (behaviors : Behaviors) :
    Moves w [] ⟨(Simulation.new behaviors w.supply).1 :: w.simulations, w.views,
      (Simulation.new behaviors w.supply).2⟩ :=
  (Move.entered (fun F => by cases F <;> exact Roster.intact_empty _ _) rfl).moves

/-- A restored simulation enters with lists of its own, which are intact. -/
theorem moves_restored {σ τ : Type} {s : Simulation} {p : Host}
    {input : Except CheckpointError Bytes} {behaviors : Behaviors}
    {unpickle : Bytes → ControlM σ τ} {layer : σ} {a : τ} (hp : p.supply = w.supply)
    (hr : (p.restore input behaviors unpickle layer).result = .ok (s, a)) :
    Moves w [] ⟨s :: w.simulations, w.views, ⟨w.supply.next + 3⟩⟩ := by
  have hsound := Host.restore_sound hr
  refine (Move.entered (fun F => ⟨hsound.chained F, hsound.nodup_members F⟩) ?_).moves
  obtain ⟨-, bytes, header, st, supply, -, hd, -, hc, -⟩ := Host.restore_eq_ok.mp hr
  obtain ⟨⟨rest, hread⟩, -⟩ := Host.decodeStream_eq_ok.mp hd
  obtain ⟨-, -, -, h₁, h₂, h₃, -⟩ :=
    (Host.connectStream_eq_ok (Stream.decoded_of_read hread).fresh).mp hc
  rw [← hp]
  exact congrArg₂ List.cons h₁ (congrArg₂ List.cons h₂ (congrArg₂ List.cons h₃ rfl))

/-- **Whatever is done to a process is made of moves.** -/
theorem Operation.exists_moves (h : Operation w w') : ∃ t, Moves w t w' := by
  cases h with
  | new behaviors => exact ⟨_, moves_new w behaviors⟩
  | restored p input behaviors unpickle layer a supply result =>
      exact ⟨_, moves_restored supply result⟩
  | spent le => exact ⟨_, (Move.spent le).moves⟩
  | step step =>
      obtain ⟨t, ht⟩ := step.exists_course
      exact ⟨t, (Move.changed ht).moves⟩
  | recipe r lawful =>
      obtain ⟨t, ht⟩ := Simulation.exists_course_of_steps (lawful _)
      exact ⟨t, (Move.changed ht).moves⟩
  | read held F n => exact ⟨_, (Move.looked held F n).moves⟩
  | append r lawful => exact exists_moves_append lawful _
  | extend rs lawful => exact exists_moves_extend lawful _
  | replaceAll rs lawful => exact exists_moves_replaceAll lawful _

/-! ### Runs -/

/-- Operations one after the other, with the events of the moves that they are made of. -/
inductive Runs (w : Process) : History → Process → Prop where
  | refl : Runs w [] w
  | more {t t' : History} {w' w'' : Process} (before : Runs w t w') (operation : Operation w' w'')
      (events : Moves w' t' w'') : Runs w (t' ++ t) w''

theorem Runs.moves (h : Runs w t w') : Moves w t w' := by
  induction h with
  | refl => exact .refl
  | more _ _ events ih => exact ih.trans events

/-- **Whatever is done to a process is a run**: operations in any sequence have events that tell
them. -/
theorem exists_runs_iff : (∃ t, Runs w t w') ↔ Relation.ReflTransGen Operation w w' := by
  constructor
  · rintro ⟨t, h⟩
    induction h with
    | refl => exact .refl
    | more _ operation _ ih => exact ih.tail operation
  · intro h
    induction h with
    | refl => exact ⟨_, .refl⟩
    | tail _ operation ih =>
        obtain ⟨t, hruns⟩ := ih
        obtain ⟨t', hmoves⟩ := operation.exists_moves
        exact ⟨_, hruns.more operation hmoves⟩

variable {supply : InstanceSupply} {s : Simulation}

theorem Runs.kept (h : Runs (start supply) t w) (few : t.Few) : w.Kept t := by
  have hkept := h.moves.kept (kept_start supply) (by rwa [List.append_nil])
  rwa [List.append_nil] at hkept

/-- **A view is never out of date.**  A read refreshes the view and answers from it, so it answers
as a walk through the list does; and the view is rebuilt exactly when it has not looked yet or was
told to look again, when it last looked at another list, or when the list was appended to or torn
down since it looked. -/
theorem Runs.views_current (h : Runs (start supply) t w) (few : t.Few) (hs : s ∈ w.simulations)
    (F : Family) (n : Nat) :
    ((w.views F n).refresh (s.list F)).Shows (s.list F) ∧
    ((w.views F n).stale (s.list F) = true ↔ t.seen? F n ≠ some (s.list F).place ∨
      ListEvent.joined (s.list F).place ∈ t.since F n ∨
      ListEvent.cleared (s.list F).place ∈ t.since F n) := by
  have hkept := h.kept few
  rw [hkept.refresh_eq few hs]
  exact ⟨RosterView.ofList_shows _, hkept.stale_iff few hs F n⟩

/-- A new simulation, and what it is when a boundary condition has joined. -/
def sampleNew : Simulation := (Simulation.new .builtin ⟨0⟩).1

def sampleDefined : Simulation :=
  sampleNew.joined (F := .boundary)
    (.unlinked sampleNew.registry.nextId "wall" BoundaryKind.absorb BoundaryParams.none none)

theorem define_sample :
    Simulation.define .boundary "wall" BoundaryKind.absorb BoundaryParams.none none sampleNew =
      .ok sampleNew.registry.nextId sampleDefined :=
  (Simulation.new_sound .builtin ⟨0⟩).define_eq .boundary "wall" BoundaryKind.absorb
    BoundaryParams.none none

/-- The process in which a view has looked at the boundary list of the simulation before that. -/
def sampleProcess (s : Simulation) : Process :=
  setView ⟨[s], fun _ _ => .empty, ⟨3⟩⟩ .boundary 0 (RosterView.empty.refresh sampleNew.boundaries)

theorem runs_sample :
    Runs (start ⟨0⟩) [.joined ⟨0⟩, .looked .boundary 0 ⟨0⟩] (sampleProcess sampleDefined) := by
  have hnew : Runs (start ⟨0⟩) [] ⟨[sampleNew], fun _ _ => .empty, ⟨3⟩⟩ :=
    .more .refl (.new .builtin) (moves_new _ _)
  have hread : Runs (start ⟨0⟩) [.looked .boundary 0 ⟨0⟩] (sampleProcess sampleNew) :=
    .more hnew (.read (s := sampleNew) List.mem_cons_self .boundary 0)
      (Move.looked (s := sampleNew) List.mem_cons_self .boundary 0).moves
  have hstep := Simulation.Step.define (s := sampleNew) .boundary "wall" BoundaryKind.absorb
    BoundaryParams.none none
  rw [SimulationM.leaves, define_sample] at hstep
  obtain ⟨c, -, happend, hothers⟩ := (SimulationM.builds_define ..).joins define_sample
  exact .more hread (@Operation.step [] [] sampleNew sampleDefined _ _ hstep)
    (@Move.changed [] [] sampleNew sampleDefined _ _ _ (.joined happend hothers)).moves

/-- The view has something to catch up with. -/
theorem Runs.views_current_sample :
    ((sampleProcess sampleDefined).views .boundary 0).stale sampleDefined.boundaries = true ∧
    (((sampleProcess sampleDefined).views .boundary 0).refresh
      sampleDefined.boundaries).size = 1 := by
  have h := runs_sample.views_current (History.few_of_length_lt (by decide))
    (s := sampleDefined) List.mem_cons_self .boundary 0
  exact ⟨h.2.mpr (.inr (.inl (by decide))), h.1.size⟩

/-- A handle was taken from a list: given out by a view that was just brought up to date with it, or
by appending a stock recipe. -/
inductive Takes (w : Process) (l : Roster F) (h : Handle F) : Prop where
  | read {s : Simulation} (held : s ∈ w.simulations) (list : s.list F = l) {n : Nat}
      (given : ((w.views F n).refresh l).Gives h) : Takes w l h
  | append {s : Simulation} (held : s ∈ w.simulations) (list : s.list F = l)
      {x : RosterView F × Simulation} {v : RosterView F} {r : Recipe F} (stock : r.Stock)
      (result : RosterView.append r x = .ok h (v, s)) : Takes w l h

theorem Takes.exists_member {l : Roster F} {h : Handle F} (hw : w.Kept t) (few : t.Few)
    (ht : w.Takes l h) :
    ∃ s ∈ w.simulations, s.list F = l ∧ ∃ c ∈ l.members, h = .ofList l c.object := by
  cases ht with
  | @read s held list n given =>
      subst list
      rw [hw.refresh_eq few held] at given
      exact ⟨s, held, rfl, (RosterView.ofList_shows _).exists_member given⟩
  | @append s held list x v r stock result =>
      subst list
      exact ⟨s, held, rfl, RosterView.exists_member_of_append stock result⟩

/-- **A handle resolves exactly while it is valid**: in the list that it was taken from, until that
is torn down.  It resolves to the member that it was taken for, which has changed in its parameters
at most. -/
theorem Runs.resolve_taken (h₁ : Runs (start supply) t w) (h₂ : Runs w t' w')
    (few : (t' ++ t).Few) {l : Roster F} {h : Handle F} (taken : w.Takes l h)
    (hs : s ∈ w'.simulations) :
    ∃ c ∈ l.members, h.object = c.object ∧
      ((s.list F).place = l.place ∧ ListEvent.cleared l.place ∉ t' →
        ∃ c', h.resolve (s.list F) = .ok c' ∧ c.Retuned c') ∧
      (¬ ((s.list F).place = l.place ∧ ListEvent.cleared l.place ∉ t') →
        h.resolve (s.list F) = .error (.stale h.object)) := by
  have hkept := h₁.kept few.earlier
  obtain ⟨s₀, hs₀, rfl, c, hc, rfl⟩ := taken.exists_member hkept few.earlier
  have htracks := h₂.moves.tracks hkept.apart (hkept.apart.tracks hs₀ F)
  rw [List.append_nil] at htracks
  refine ⟨c, hc, rfl, ?_⟩
  by_cases hp : (s.list F).place = (s₀.list F).place
  · have hresolve := (htracks.became s hs hp).resolve_ofList (hkept.intact s₀ hs₀ F)
      (few.later _) hc
    rw [and_iff_right hp, not_not]
    exact hresolve
  · exact ⟨fun hv => absurd hv.1 hp, fun _ => Handle.resolve_of_ne fun he => hp he.1⟩

/-- A handle to the boundary condition resolves, and no longer after the teardown. -/
theorem Runs.resolve_taken_sample :
    (∃ c, (Handle.mk ⟨0⟩ ⟨5⟩ ⟨0⟩ : Handle .boundary).resolve sampleDefined.boundaries = .ok c) ∧
    (Handle.mk ⟨0⟩ ⟨5⟩ ⟨0⟩ : Handle .boundary).resolve
      (sampleDefined.clearList .boundary).boundaries = .error (.stale ⟨5⟩) := by
  have taken : (sampleProcess sampleDefined).Takes sampleDefined.boundaries
      (⟨⟨0⟩, ⟨5⟩, ⟨0⟩⟩ : Handle .boundary) :=
    .read (s := sampleDefined) (n := 0) List.mem_cons_self rfl (.nth (i := 0) rfl)
  have hclear : Runs (sampleProcess sampleDefined) [.cleared ⟨0⟩]
      (sampleProcess (sampleDefined.clearList .boundary)) :=
    .more .refl (@Operation.step [] [] sampleDefined _ _ _ (.clearList .boundary))
      (@Move.changed [] [] sampleDefined _ _ _ _ (.of_clearList sampleDefined .boundary)).moves
  obtain ⟨_, -, -, hok, -⟩ := runs_sample.resolve_taken .refl
    (History.few_of_length_lt (by decide)) taken (s := sampleDefined) List.mem_cons_self
  obtain ⟨_, -, -, -, hstale⟩ := runs_sample.resolve_taken hclear
    (History.few_of_length_lt (by decide)) taken (s := sampleDefined.clearList .boundary)
    List.mem_cons_self
  obtain ⟨c, hc, -⟩ := hok ⟨rfl, List.not_mem_nil⟩
  exact ⟨⟨c, hc⟩, hstale fun h => h.2 List.mem_cons_self⟩

end Process

end ParticleSim
