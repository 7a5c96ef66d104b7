import ParticleSim.Proofs.Roster.Dispatch

/-!
# Rosters — What hits add up to

The boundary conditions that come from stock reflect, absorb, reinject or count.  What one of them
answers does not depend on what it has counted (`Roster.answer_tallied`), and what a hit does to the
counts and to the populations can be told from its id and its species alone
(`Roster.Stock.interact_eq`).  So hits add up: counts grow (`Roster.tallied`) and populations shrink
(`SpeciesList.drain`) by numbers of hits.
-/

namespace ParticleSim

/-! ### Hits and who they reach -/

/-- A hit at an id. -/
structure Strike where
  id : ComponentId
  hit : Hit
deriving DecidableEq

/-- A hit reaches a member whose id it has, unless that is a reserved one. -/
def Strike.Reaches (x : Strike) (c : Component .boundary) : Prop :=
  c.id = some x.id ∧ x.id ≠ reflectId ∧ x.id ≠ absorbId

instance (x : Strike) (c : Component .boundary) : Decidable (x.Reaches c) :=
  inferInstanceAs (Decidable (_ ∧ _))

/-! ### Counts -/

namespace BoundaryParams

/-- Counts that have grown by the given numbers. -/
def add (more : Nat → Nat) : BoundaryParams → BoundaryParams
  | tally counts => tally (counts.mapIdx fun i n => n + .ofNat (more i))
  | params => params

theorem add_zero (params : BoundaryParams) : params.add (fun _ => 0) = params := by
  cases params with
  | tally counts =>
      have hsame : (counts.mapIdx fun _ n => n + .ofNat 0) = counts :=
        List.ext_getElem? fun i => by simp
      exact congrArg tally hsame
  | none | reflux _ _ => rfl

theorem add_add (params : BoundaryParams) (more more' : Nat → Nat) :
    (params.add more).add more' = params.add fun i => more' i + more i := by
  cases params with
  | tally counts =>
      simp only [add, List.mapIdx_mapIdx, tally.injEq]
      refine congrArg (List.mapIdx · counts) (funext fun i => funext fun n => ?_)
      simp only [Function.comp_apply, UInt64.ofNat_add]
      grind
  | none | reflux _ _ => rfl

/-- A hit that is counted is one more. -/
theorem modify_eq_mapIdx (counts : List UInt64) (j : Nat) :
    counts.modify j (· + 1) = counts.mapIdx fun i n => n + .ofNat (if j = i then 1 else 0) := by
  refine List.ext_getElem? fun i => ?_
  rw [List.getElem?_modify, List.getElem?_mapIdx]
  refine congrFun (congrArg Option.map (funext fun n => ?_)) _
  by_cases hj : j = i <;> simp [hj]

/-- What becomes of a particle of a species at a boundary condition from stock without a reserved
id. -/
def answer (i : Nat) : BoundaryParams → Disposition
  | reflux parallel _ => if i < parallel.length then .reinjected else .absorbed
  | _ => .absorbed

theorem answer_add (params : BoundaryParams) (more : Nat → Nat) (i : Nat) :
    (params.add more).answer i = params.answer i := by
  cases params <;> rfl

end BoundaryParams

/-! ### Populations -/

namespace SpeciesList

/-- Populations that have shrunk by the given numbers, down to zero. -/
def drain (species : SpeciesList) (gone : Nat → Nat) : SpeciesList :=
  ⟨species.toList.mapIdx fun i sp =>
    { sp with population := .ofNat (sp.population.toNat - gone i) }⟩

theorem drain_zero (species : SpeciesList) : species.drain (fun _ => 0) = species := by
  refine congrArg SpeciesList.mk (List.ext_getElem? fun i => ?_)
  simp

theorem drain_drain (species : SpeciesList) (gone gone' : Nat → Nat) :
    (species.drain gone).drain gone' = species.drain fun i => gone' i + gone i := by
  refine congrArg SpeciesList.mk (List.ext_getElem? fun i => ?_)
  simp only [drain, List.getElem?_mapIdx, Option.map_map]
  refine congrFun (congrArg Option.map (funext fun sp => ?_)) _
  have hlt : sp.population.toNat - gone i < UInt64.size :=
    Nat.lt_of_le_of_lt (Nat.sub_le _ _) sp.population.toNat_lt
  simp only [Function.comp_apply, UInt64.toNat_ofNat_of_lt' hlt, Nat.sub_sub, Nat.add_comm]

/-- A particle that is absorbed is one less. -/
theorem absorb_eq_drain (species : SpeciesList) (hit : Hit) :
    hit.absorb species =
      (.absorbed, species.drain fun i => if hit.species = i then 1 else 0) := by
  have hpred (n : UInt64) : (if n = 0 then 0 else n - 1) = .ofNat (n.toNat - 1) := by
    split
    · next h => rw [h]; rfl
    · next h =>
      have hle : 1 ≤ n := UInt64.le_iff_toNat_le.mpr
        (Nat.pos_of_ne_zero fun h0 => h (UInt64.toNat_inj.mp h0))
      refine UInt64.toNat_inj.mp ?_
      rw [UInt64.toNat_sub_of_le _ _ hle,
        UInt64.toNat_ofNat_of_lt' (Nat.lt_of_le_of_lt (Nat.sub_le _ _) n.toNat_lt)]
      rfl
  refine congrArg (fun l => (Disposition.absorbed, SpeciesList.mk l)) (List.ext_getElem? fun i => ?_)
  rw [List.getElem?_modify, List.getElem?_mapIdx]
  refine congrFun (congrArg Option.map (funext fun sp => ?_)) _
  by_cases hi : hit.species = i
  · simp only [if_pos hi, hpred]
  · simp [if_neg hi]

end SpeciesList

/-! ### Boundary conditions from stock -/

/-- A boundary condition as the stock recipes make it, of a simulation with `width` species, and
whatever it has counted since. -/
inductive Component.Stock (width : Nat) (c : Component .boundary) : Prop where
  | plain (kind : c.kind = .reflect ∨ c.kind = .absorb) (params : c.params = .none)
  | refluxing (symbol : String) (parallel perpendicular : List Real32)
      (kind : c.kind = .maxwellianReflux) (params : c.params = .reflux parallel perpendicular)
      (behavior : c.behavior = some ⟨symbol, maxwellianReflux⟩) (length : parallel.length = width)
  | tallying (symbol : String) (counts : List UInt64) (kind : c.kind = .absorbTally)
      (params : c.params = .tally counts) (behavior : c.behavior = some ⟨symbol, absorbTally⟩)
      (length : counts.length = width)

namespace Component

variable {c : Component .boundary} {width : Nat}

/-- How many hits by particles of a species have reached a member. -/
def reached (c : Component .boundary) (calls : List Strike) (i : Nat) : Nat :=
  calls.countP fun x => x.Reaches c ∧ x.hit.species = i

/-- A boundary condition that has counted the hits that reached it. -/
def tallied (calls : List Strike) (c : Component .boundary) : Component .boundary :=
  let params : BoundaryParams := c.params
  { c with params := params.add (c.reached calls) }

theorem params_tallied (calls : List Strike) (c : Component .boundary) :
    (c.tallied calls).params = (c.params : BoundaryParams).add (c.reached calls) :=
  rfl

theorem reached_append (c : Component .boundary) (calls calls' : List Strike) :
    c.reached (calls ++ calls') = fun i => c.reached calls' i + c.reached calls i :=
  funext fun _ => List.countP_append.trans (Nat.add_comm _ _)

theorem reached_perm {calls calls' : List Strike} (h : calls.Perm calls') :
    c.reached calls = c.reached calls' :=
  funext fun _ => h.countP_eq _

theorem reached_singleton (c : Component .boundary) (x : Strike) :
    c.reached [x] = fun i => if x.Reaches c ∧ x.hit.species = i then 1 else 0 :=
  funext fun i => by simp only [reached, List.countP_singleton, decide_eq_true_eq]

theorem tallied_nil (c : Component .boundary) : c.tallied [] = c := by
  have hnone : c.reached [] = fun _ => 0 := rfl
  rw [tallied, hnone, BoundaryParams.add_zero]

/-- Hits in two parts are counted one part after the other. -/
theorem tallied_append (calls calls' : List Strike) (c : Component .boundary) :
    c.tallied (calls ++ calls') = (c.tallied calls).tallied calls' := by
  have hsame : (c.tallied calls).reached = c.reached := rfl
  rw [tallied, tallied, hsame, params_tallied, BoundaryParams.add_add, reached_append]
  rfl

theorem tallied_perm {calls calls' : List Strike} (h : calls.Perm calls') :
    c.tallied calls = c.tallied calls' := by
  rw [tallied, tallied, reached_perm h]

/-- Only counts change. -/
theorem tallied_of_ne_tally {calls : List Strike}
    (h : ∀ counts, c.params ≠ BoundaryParams.tally counts) : c.tallied calls = c := by
  obtain ⟨object, name, id, kind, params, behavior, link⟩ := c
  cases params with
  | tally counts => exact absurd rfl (h counts)
  | none | reflux _ _ => rfl

/-- Only a hit that reaches it is counted. -/
theorem tallied_of_not_reaches {x : Strike} (h : ¬ x.Reaches c) : c.tallied [x] = c := by
  simp only [tallied, reached_singleton, h, false_and, if_false, BoundaryParams.add_zero]

theorem tallied_of_reaches {x : Strike} (h : x.Reaches c) :
    c.tallied [x] = { c with
      params := (c.params : BoundaryParams).add fun i => if x.hit.species = i then 1 else 0 } := by
  simp only [tallied, reached_singleton, h, true_and]

theorem Stock.tallied (h : c.Stock width) (calls : List Strike) :
    (c.tallied calls).Stock width := by
  cases h with
  | plain hkind hparams =>
      exact .plain hkind (by rw [params_tallied, hparams]; rfl)
  | refluxing symbol parallel perpendicular hkind hparams hbehavior hlength =>
      exact .refluxing symbol parallel perpendicular hkind (by rw [params_tallied, hparams]; rfl)
        hbehavior hlength
  | tallying symbol counts hkind hparams hbehavior hlength =>
      exact .tallying symbol _ hkind (by rw [params_tallied, hparams]; rfl) hbehavior
        (by rw [List.length_mapIdx, hlength])

/-- One that counts is there for that, and has a count for each species. -/
theorem Stock.of_tally (h : c.Stock width) {counts : List UInt64}
    (hp : c.params = BoundaryParams.tally counts) :
    c.kind = .absorbTally ∧ counts.length = width := by
  cases h with
  | plain _ hparams => cases hp.symm.trans hparams
  | refluxing _ _ _ _ hparams => cases hp.symm.trans hparams
  | tallying _ counts' hkind hparams _ hlength =>
      cases hp.symm.trans hparams
      exact ⟨hkind, hlength⟩

/-- **What a hit does** at a boundary condition from stock: the answer, one count more, and one
particle less if it is absorbed. -/
theorem Stock.interact_eq (h : c.Stock width) (hr : c.kind ≠ .reflect) (ha : c.kind ≠ .absorb)
    (hit : Hit) (species : SpeciesList) :
    c.interact hit species =
      ((c.params : BoundaryParams).answer hit.species,
        (c.params : BoundaryParams).add fun i => if hit.species = i then 1 else 0,
        species.drain fun i =>
          if hit.species = i ∧ (c.params : BoundaryParams).answer hit.species = .absorbed then 1
          else 0) := by
  rw [interact_of_free hr ha]
  cases h with
  | plain hkind hparams => exact absurd hkind (not_or.mpr ⟨hr, ha⟩)
  | refluxing symbol parallel perpendicular hkind hparams hbehavior hlength =>
      simp only [hbehavior, hparams, maxwellianReflux, BoundaryParams.answer, BoundaryParams.add]
      split
      · simp [SpeciesList.drain_zero]
      · simp [SpeciesList.absorb_eq_drain]
  | tallying symbol counts hkind hparams hbehavior hlength =>
      simp only [hbehavior, hparams, absorbTally, BoundaryParams.answer, BoundaryParams.add,
        SpeciesList.absorb_eq_drain, BoundaryParams.modify_eq_mapIdx, and_true]

end Component

/-! ### Lists from stock -/

namespace Roster

/-- What becomes of a particle of a species that hits at an id. -/
def answer (l : Roster .boundary) (id : ComponentId) (i : Nat) : Except LookupError Disposition :=
  if id = reflectId then .ok .reflected
  else if id = absorbId then .ok .absorbed
  else
    match l.memberById? id with
    | some c => .ok ((c.params : BoundaryParams).answer i)
    | none => .error (.id id)

/-- A list whose members have counted the hits that reached them. -/
def tallied (l : Roster .boundary) (calls : List Strike) : Roster .boundary :=
  { l with members := l.members.map (Component.tallied calls) }

/-- How many particles of a species have been absorbed by hits. -/
def absorbed (l : Roster .boundary) (calls : List Strike) (i : Nat) : Nat :=
  calls.countP fun x => x.hit.species = i ∧ l.answer x.id x.hit.species = .ok .absorbed

/-- A list of boundary conditions from stock, for each of which it is known how many species there
were when it was made. -/
structure Stock (widths : List Nat) (l : Roster .boundary) : Prop where
  intact : l.Intact
  members : List.Forall₂ Component.Stock widths l.members

variable {l : Roster .boundary} {widths : List Nat}

/-! ### Hits that were counted -/

theorem tallied_nil (l : Roster .boundary) : l.tallied [] = l := by
  have hid : Component.tallied [] = id := funext Component.tallied_nil
  rw [tallied, hid, List.map_id]

theorem tallied_append (l : Roster .boundary) (calls calls' : List Strike) :
    l.tallied (calls ++ calls') = (l.tallied calls).tallied calls' := by
  simp only [tallied, List.map_map]
  refine congrArg (fun f => { l with members := l.members.map f }) (funext fun c => ?_)
  exact c.tallied_append calls calls'

theorem tallied_retuned (l : Roster .boundary) (calls : List Strike) :
    l.Retuned (l.tallied calls) :=
  ⟨rfl, rfl, rfl, List.forall₂_map_right_iff.mpr (List.forall₂_same.mpr fun _ _ => ⟨_, rfl⟩)⟩

/-- **What has been counted does not change any answer.** -/
theorem answer_tallied (l : Roster .boundary) (calls : List Strike) :
    (l.tallied calls).answer = l.answer := by
  have hmember (id : ComponentId) :
      (l.tallied calls).memberById? id = (l.memberById? id).map (Component.tallied calls) := by
    simp only [memberById?, native, tallied, ← List.map_reverse, List.find?_map]
    rfl
  refine funext fun id => funext fun i => ?_
  rw [answer, answer, hmember]
  cases l.memberById? id with
  | none => rfl
  | some c => simp only [Option.map_some, Component.params_tallied, BoundaryParams.answer_add]

theorem tallied_perm {calls calls' : List Strike} (h : calls.Perm calls') :
    l.tallied calls = l.tallied calls' := by
  have hfun : Component.tallied calls = Component.tallied calls' :=
    funext fun c => Component.tallied_perm h
  rw [tallied, tallied, hfun]

theorem absorbed_append (l : Roster .boundary) (calls calls' : List Strike) :
    l.absorbed (calls ++ calls') = fun i => l.absorbed calls' i + l.absorbed calls i :=
  funext fun _ => List.countP_append.trans (Nat.add_comm _ _)

theorem absorbed_perm {calls calls' : List Strike} (h : calls.Perm calls') :
    l.absorbed calls = l.absorbed calls' :=
  funext fun _ => h.countP_eq _

theorem absorbed_tallied (l : Roster .boundary) (calls : List Strike) :
    (l.tallied calls).absorbed = l.absorbed := by
  funext calls' i
  rw [absorbed, absorbed, answer_tallied]

theorem Stock.tallied (h : l.Stock widths) (calls : List Strike) :
    (l.tallied calls).Stock widths :=
  ⟨h.intact.retuned (l.tallied_retuned calls),
    List.forall₂_map_right_iff.mpr (h.members.imp fun _ _ hc => hc.tallied calls)⟩

/-- Each member is one from stock. -/
theorem Stock.member (h : l.Stock widths) {i : Nat} {c : Component .boundary}
    (hc : l.members[i]? = some c) : ∃ width, widths[i]? = some width ∧ c.Stock width := by
  obtain ⟨hi, rfl⟩ := List.getElem?_eq_some_iff.mp hc
  have hi' : i < widths.length := h.members.length_eq ▸ hi
  exact ⟨_, List.getElem?_eq_getElem hi', (List.forall₂_iff_get.mp h.members).2 i hi' hi⟩

/-- A hit that reaches nobody is not counted. -/
theorem tallied_of_not_reaches {x : Strike} (h : ∀ c ∈ l.members, ¬ x.Reaches c) :
    l.tallied [x] = l := by
  have hmembers : l.members.map (Component.tallied [x]) = l.members.map id :=
    List.map_congr_left fun c hc => Component.tallied_of_not_reaches (h c hc)
  rw [List.map_id] at hmembers
  rw [Roster.tallied, hmembers]

/-- A hit is counted by the one member that it reaches. -/
theorem Intact.tallied_of_reaches (h : l.Intact) {x : Strike} {c : Component .boundary} {i : Nat}
    (hc : l.members[i]? = some c) (hx : x.Reaches c) :
    l.tallied [x] = { l with members := l.members.set i { c with
      params := (c.params : BoundaryParams).add fun j => if x.hit.species = j then 1 else 0 } } := by
  obtain ⟨hid, hfree⟩ := hx
  have hmembers : l.members.map (Component.tallied [x]) = l.members.set i { c with
      params := (c.params : BoundaryParams).add fun j => if x.hit.species = j then 1 else 0 } := by
    refine List.ext_getElem? fun j => ?_
    rw [List.getElem?_map, List.getElem?_set]
    by_cases hij : i = j
    · subst hij
      rw [if_pos rfl, if_pos (List.getElem?_eq_some_iff.mp hc).1, hc, Option.map_some,
        Component.tallied_of_reaches ⟨hid, hfree⟩]
    · rw [if_neg hij]
      cases hj : l.members[j]? with
      | none => rfl
      | some c' =>
          have hnot : ¬ x.Reaches c' := fun hx => hij
            (h.place_unique hc hj hid hx.1 (Family.builtinById?_boundary.mpr hfree))
          rw [Option.map_some, Component.tallied_of_not_reaches hnot]
  rw [Roster.tallied, hmembers]

/-! ### One hit -/

theorem absorbed_singleton (l : Roster .boundary) (x : Strike) :
    l.absorbed [x] = fun i =>
      if x.hit.species = i ∧ l.answer x.id x.hit.species = .ok .absorbed then 1 else 0 := by
  funext i
  simp only [absorbed, List.countP_singleton, decide_eq_true_eq]

/-- **What a hit does** at a list from stock can be told from its id and its species: a hit at an id
that nobody has fails, and any other is counted. -/
theorem Stock.interact_eq (h : l.Stock widths) (x : Strike) (species : SpeciesList) :
    l.interact x.id x.hit species =
      (l.answer x.id x.hit.species).map fun d =>
        (d, l.tallied [x], species.drain (l.absorbed [x])) := by
  obtain ⟨id, hit⟩ := x
  rw [absorbed_singleton]
  by_cases hreflect : id = reflectId
  · subst hreflect
    have hanswer : l.answer reflectId hit.species = .ok .reflected := rfl
    rw [tallied_of_not_reaches fun c _ hx => hx.2.1 rfl]
    simp [hanswer, interact_reflectId, Except.map, SpeciesList.drain_zero]
  by_cases habsorb : id = absorbId
  · subst habsorb
    have hanswer : l.answer absorbId hit.species = .ok .absorbed := rfl
    rw [tallied_of_not_reaches fun c _ hx => hx.2.2 rfl]
    simp [hanswer, interact_absorbId, Except.map, SpeciesList.absorb_eq_drain]
  have hfree := Family.builtinById?_boundary.mpr ⟨hreflect, habsorb⟩
  cases hm : l.memberById? id with
  | none =>
      have hanswer : l.answer id hit.species = .error (.id id) := by
        rw [answer, if_neg hreflect, if_neg habsorb, hm]
      rw [hanswer]
      exact interact_eq_error.mpr ⟨rfl, by rw [findById?_of_free l hfree, hm]; rfl⟩
  | some c =>
      have hanswer : l.answer id hit.species =
          .ok ((c.params : BoundaryParams).answer hit.species) := by
        rw [answer, if_neg hreflect, if_neg habsorb, hm]
      obtain ⟨hmem, hid⟩ := (h.intact.memberById?_eq_some hfree).mp hm
      obtain ⟨i, hi⟩ := List.mem_iff_getElem?.mp hmem
      obtain ⟨hr, ha⟩ := h.intact.kind_of_free hfree hi hid
      obtain ⟨width, -, hstock⟩ := h.member hi
      rw [h.intact.interact_of_member hfree hi hid, hstock.interact_eq hr ha,
        h.intact.tallied_of_reaches hi ⟨hid, hreflect, habsorb⟩, hanswer]
      simp only [Except.map, Except.ok.injEq]

/-- A hit fails exactly when its id finds nothing, whatever its species. -/
theorem Stock.answer_eq_error (h : l.Stock widths) {id : ComponentId} {i : Nat} {e : LookupError} :
    l.answer id i = .error e ↔ e = .id id ∧ l.findById? id = none := by
  have hfails : l.interact id ⟨i, 0⟩ .empty = .error e ↔ _ := interact_eq_error
  rw [← hfails, h.interact_eq ⟨id, ⟨i, 0⟩⟩ .empty]
  cases l.answer id i <;> simp [Except.map]

/-- A hit at an id that finds nothing reaches nobody. -/
theorem Intact.not_reaches (h : l.Intact) {x : Strike} (hx : l.findById? x.id = none) :
    ∀ c ∈ l.members, ¬ x.Reaches c := by
  rintro c hc ⟨hid, hnot⟩
  have hfree := Family.builtinById?_boundary.mpr hnot
  rw [findById?_of_free l hfree, (h.memberById?_eq_some hfree).mpr ⟨hc, hid⟩] at hx
  cases hx

/-- Ids wrap to the reserved ones only in lists of `2 ^ 64 - 2` members; before that a hit reaches
the member whose id it has. -/
theorem Intact.reaches_iff (h : l.Intact) {c : Component .boundary} {i : Nat}
    (hc : l.members[i]? = some c) (hr : c.kind ≠ .reflect) (ha : c.kind ≠ .absorb)
    (hi : i + 2 < UInt64.size) {x : Strike} : x.Reaches c ↔ c.id = some x.id := by
  refine and_iff_left_of_imp fun hid => ?_
  have hnext : Family.nextId .boundary c.kind i = ⟨-3 - .ofNat i⟩ := by
    cases hk : c.kind
    case reflect => exact absurd hk hr
    case absorb => exact absurd hk ha
    all_goals rfl
  rw [h.id_eq_nextId hc, hnext, Option.some.injEq] at hid
  have hne (n : Nat) (hn : n < UInt64.size) (hlt : i < n) :
      (⟨-3 - .ofNat i⟩ : ComponentId) ≠ ⟨-3 - .ofNat n⟩ := by
    intro he
    have hval : -3 - Int64.ofNat i = -3 - Int64.ofNat n := congrArg ComponentId.val he
    have hin := ofNat_inj_of_lt (by omega) hn (by grind : Int64.ofNat i = .ofNat n)
    omega
  rw [← hid]
  exact ⟨hne (UInt64.size - 2) (by decide) (by omega), hne (UInt64.size - 1) (by decide) (by omega)⟩

/-- A hit that fails leaves counts and populations as they are. -/
theorem Stock.settled_of_error (h : l.Stock widths) {x : Strike} {e : LookupError}
    (hx : l.answer x.id x.hit.species = .error e) :
    l.tallied [x] = l ∧ l.absorbed [x] = fun _ => 0 := by
  refine ⟨tallied_of_not_reaches (h.intact.not_reaches (h.answer_eq_error.mp hx).2), ?_⟩
  rw [absorbed_singleton, hx]
  simp

end Roster

end ParticleSim
