import ParticleSim.Roster.Record
import ParticleSim.Proofs.Checkpoint.Staging
import ParticleSim.Proofs.Component.Records
import ParticleSim.Proofs.Roster.Chains

/-!
# Restores — Lists

A list finds its members along their links and takes them out of the staged objects.  Both succeed
for one sequence of components at most, and say of it what a list says of its members:

* the walk along the links, that they are linked (`RosterRecord.connect_eq_ok`);
* the move into the list, that they are numbered (`RosterRecord.moveMembers_eq_ok`).
-/

namespace ParticleSim

namespace RosterRecord

variable {F : Family} {α : Type} {view : α → Option (Component F)} {id : ObjectId}
  {staged : Staging α}

/-! ### Following links -/

theorem follow_eq_ok {object : ObjectId} {next : Option ObjectId} :
    follow view id staged object = .ok next ↔
      ∃ c, staged.get? view object = some c ∧ c.link.isSome ∧ next = Component.linkTarget c.link := by
  rw [follow, Staging.resolve]
  cases hg : staged.get? view object with
  | none =>
      constructor
      · intro h
        cases h
      · rintro ⟨c, ⟨⟩, -⟩
  | some c =>
      simp only [Option.some.injEq, exists_eq_left', bind, Except.bind, pure, Except.pure]
      rcases c.link with _ | _ | object' <;> simp [Component.linkTarget, eq_comm]

/-- A link to the head of a list, or none if there is no head. -/
theorem link_eq_nextLink_iff {link : Option Link} {l : Roster F} :
    link = some l.nextLink ↔
      link.isSome ∧ Component.linkTarget link = l.head?.map Component.object := by
  rw [Roster.nextLink]
  rcases link with _ | _ | object <;> cases l.head? <;> simp [Component.linkTarget]

/-- **A walk ends when it has passed linked components**, at most as many as its budget, each of
which is staged under its own identity. -/
theorem walk_eq_ok {r : RosterRecord F} (l : Roster F)
    (hview : ∀ object c, staged.get? view object = some c → c.object = object) {budget : Nat}
    {cursor : Option ObjectId} {joined objects : List ObjectId} :
    r.walk view id staged budget cursor joined = .ok objects ↔
      ∃ cs : List (Component F), cs.length ≤ budget ∧
        objects = cs.map Component.object ++ joined ∧
        cursor = cs.getLast?.map Component.object ∧
        (∀ c ∈ cs, staged.get? view c.object = some c) ∧
        ({ l with members := cs } : Roster F).Linked := by
  -- the walk starts at the last member, so one step of it puts one member behind the others
  induction budget generalizing cursor joined with
  | zero =>
      cases cursor with
      | none =>
          rw [walk]
          constructor
          · rintro ⟨⟩
            exact ⟨[], Nat.le_refl 0, rfl, rfl, by simp, fun i c h => by simp at h⟩
          · rintro ⟨cs, hl, rfl, -⟩
            obtain rfl := List.length_eq_zero_iff.mp (Nat.le_zero.mp hl)
            rfl
      | some object =>
          rw [walk]
          constructor
          · intro h
            cases h
          · rintro ⟨cs, hl, -, hcursor, -⟩
            obtain rfl := List.length_eq_zero_iff.mp (Nat.le_zero.mp hl)
            cases hcursor
  | succ budget ih =>
      cases cursor with
      | none =>
          rw [walk]
          constructor
          · rintro ⟨⟩
            exact ⟨[], Nat.zero_le _, rfl, rfl, by simp, fun i c h => by simp at h⟩
          · rintro ⟨cs, -, rfl, hcursor, -⟩
            have hcs : cs = [] := by simpa using hcursor.symm
            rw [hcs]
            rfl
      | some object =>
          rw [walk]
          constructor
          · intro h
            cases hf : follow view id staged object with
            | error e => rw [hf] at h; cases h
            | ok next =>
                rw [hf] at h
                obtain ⟨c, hc, hlink, rfl⟩ := follow_eq_ok.mp hf
                obtain rfl := hview object c hc
                obtain ⟨cs, hl, rfl, hcursor, hcs, hlinked⟩ := ih.mp h
                refine ⟨cs ++ [c], by simp [hl], by simp, by simp, ?_, ?_⟩
                · intro c' hc'
                  rcases List.mem_append.mp hc' with hc' | hc'
                  · exact hcs c' hc'
                  · rw [List.mem_singleton.mp hc']
                    exact hc
                · exact Roster.joined_concat.mpr ⟨hlinked,
                    link_eq_nextLink_iff.mpr ⟨hlink, hcursor⟩⟩
          · rintro ⟨cs, hl, hobjects, hcursor, hcs, hlinked⟩
            rcases List.eq_nil_or_concat cs with rfl | ⟨cs', c, rfl⟩
            · cases hcursor
            · rw [List.concat_eq_append] at hl hobjects hcursor hcs hlinked
              obtain rfl : object = c.object := by simpa using hcursor
              obtain ⟨hlinked', hlink⟩ := Roster.joined_concat (l := { l with members := cs' }) |>.mp
                hlinked
              obtain ⟨hsome, htarget⟩ := link_eq_nextLink_iff.mp hlink
              have hf : follow view id staged c.object = .ok (Component.linkTarget c.link) :=
                follow_eq_ok.mpr ⟨c, hcs c (by simp), hsome, rfl⟩
              rw [hf]
              exact ih.mpr ⟨cs', by simpa using hl, by simpa using hobjects, htarget,
                fun c' hc' => hcs c' (by simp [hc']), hlinked'⟩

/-- **A list is connected when linked components lead from its head**, as many as it claims. -/
theorem connect_eq_ok {r r' : RosterRecord F} (l : Roster F)
    (hview : ∀ object c, staged.get? view object = some c → c.object = object) :
    connect view id staged r = .ok () r' ↔
      ∃ cs : List (Component F), cs.length = r.count.toNat ∧
        r.head = cs.getLast?.map Component.object ∧
        (∀ c ∈ cs, staged.get? view c.object = some c) ∧
        ({ l with members := cs } : Roster F).Linked ∧
        r' = { r with members := cs.map Component.object } := by
  rw [connect, get_bind]
  constructor
  · intro h
    cases hw : r.walk view id staged r.count.toNat r.head [] with
    | error e => rw [hw] at h; exact absurd h throw_ne_ok
    | ok objects =>
        rw [hw] at h
        obtain ⟨cs, -, rfl, hhead, hcs, hlinked⟩ := (walk_eq_ok l hview).mp hw
        simp only [List.append_nil, List.length_map] at h
        by_cases hl : cs.length = r.count.toNat
        · rw [if_pos hl] at h
          cases h
          exact ⟨cs, hl, hhead, hcs, hlinked, rfl⟩
        · rw [if_neg hl] at h
          exact absurd h throw_ne_ok
  · rintro ⟨cs, hl, hhead, hcs, hlinked, rfl⟩
    have hw : r.walk view id staged r.count.toNat r.head [] = .ok (cs.map Component.object) :=
      (walk_eq_ok l hview).mpr ⟨cs, Nat.le_of_eq hl, by simp, hhead, hcs, hlinked⟩
    rw [hw]
    simp only [List.length_map, hl, if_true]
    rfl

/-- A walk looks at nothing but the components that the view sees. -/
theorem walk_congr {r : RosterRecord F} {staged' : Staging α}
    (h : ∀ object, staged.get? view object = staged'.get? view object) (budget : Nat)
    (cursor : Option ObjectId) (joined : List ObjectId) :
    r.walk view id staged budget cursor joined = r.walk view id staged' budget cursor joined := by
  have hf : ∀ object, follow view id staged object = follow view id staged' object := by
    intro object
    rw [follow, follow, Staging.resolve, Staging.resolve, h]
  induction budget generalizing cursor joined with
  | zero => cases cursor <;> rfl
  | succ budget ih =>
      cases cursor with
      | none => rfl
      | some object => simp only [walk, hf, ih]

theorem connect_congr {staged' : Staging α}
    (h : ∀ object, staged.get? view object = staged'.get? view object) :
    connect view id staged = connect view id staged' := by
  funext r
  rw [connect, connect, get_bind, get_bind, walk_congr h]

/-! ### Moving the members -/

/-- **Members are moved when they are numbered** and none of them is taken twice. -/
theorem moveMembers_eq_ok {l l' : Roster F} {objects taken : List ObjectId}
    {staged' : Staging α}
    (hview : ∀ object c, staged.get? view object = some c → c.object = object)
    (hl : l.Numbered) (ht : taken.Nodup) :
    moveMembers view objects l (staged.without taken) = .ok l' staged' ↔
      ∃ cs : List (Component F), objects = cs.map Component.object ∧
        (∀ c ∈ cs, staged.get? view c.object = some c) ∧ (taken ++ objects).Nodup ∧
        l' = { l with members := l.members ++ cs } ∧ l'.Numbered ∧
        staged' = staged.without (taken ++ objects) := by
  -- `l` has the members that have been moved so far, and `taken` is what they were taken from
  induction objects generalizing l taken with
  | nil =>
      refine pure_eq_ok.trans ?_
      constructor
      · rintro ⟨rfl, rfl⟩
        exact ⟨[], rfl, by simp, by simpa using ht, by simp, hl, by simp⟩
      · rintro ⟨cs, hcs, -, -, rfl, -, rfl⟩
        obtain rfl := List.map_eq_nil_iff.mp hcs.symm
        simp
  | cons object objects ih =>
      refine bind_eq_ok.trans ?_
      constructor
      · rintro ⟨c, staged₁, hc, h⟩
        obtain ⟨hnot, hget, rfl⟩ := Staging.take_eq_ok.mp hc
        obtain rfl := hview object c hget
        by_cases hid : c.id = some (F.nextId c.kind l.count)
        · simp only [hid, if_true] at h
          have ht' : (taken ++ [c.object]).Nodup :=
            List.nodup_append.mpr ⟨ht, by simp, by
              intro a ha b hb
              rw [List.mem_singleton.mp hb]
              exact fun e => hnot (e ▸ ha)⟩
          obtain ⟨cs, rfl, hcs, hn, rfl, hnum, rfl⟩ :=
            (ih (Roster.joined_concat.mpr ⟨hl, hid⟩) ht').mp h
          refine ⟨c :: cs, rfl, ?_, by simpa using hn, by simp, hnum, by simp⟩
          exact List.forall_mem_cons.mpr ⟨hget, hcs⟩
        · simp only [hid, if_false] at h
          exact absurd h throw_ne_ok
      · rintro ⟨cs, hobjects, hcs, hn, rfl, hnum, rfl⟩
        cases cs with
        | nil => cases hobjects
        | cons c cs =>
            rw [List.map_cons, List.cons.injEq] at hobjects
            obtain ⟨rfl, rfl⟩ := hobjects
            obtain ⟨hget, hcs⟩ := List.forall_mem_cons.mp hcs
            have hn' : ((taken ++ [c.object]) ++ cs.map Component.object).Nodup := by simpa using hn
            have hnot : c.object ∉ taken := by
              have ht' := (List.nodup_append.mp hn').1
              exact fun hm => (List.nodup_append.mp ht').2.2 _ hm _ (by simp) rfl
            have hnum' : ({ l with members := (l.members ++ [c]) ++ cs } : Roster F).Numbered := by
              simpa using hnum
            have hstep := Roster.Joined.of_append (l := { l with members := l.members ++ [c] }) hnum'
            refine ⟨c, staged.without (taken ++ [c.object]),
              Staging.take_eq_ok.mpr ⟨hnot, hget, rfl⟩, ?_⟩
            simp only [(Roster.joined_concat.mp hstep).2, if_true]
            exact (ih hstep (List.nodup_append.mp hn').1).mpr
              ⟨cs, rfl, hcs, hn', by simp, by simpa using hnum, by simp⟩

end RosterRecord

end ParticleSim
