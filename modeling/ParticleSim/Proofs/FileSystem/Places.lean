import ParticleSim.Host.Session
import ParticleSim.Proofs.OrderedMap

/-!
# Files — Where paths lead

What stands at a path (`FileSystem.stat`) decides what the operations on it do, and an operation on
a file leaves alone what every path to another place leads to (`FileSystem.SameBut`).

A stream is written beside the path that it is for: in the same directory, to a place of its own
(`FileSystem.stat_of_partial`).  So what stands at the path stays while the stream is created,
written and deleted; at last the stream takes its name, unless that is a directory's
(`FileSystem.exists_rename_iff`, `FileSystem.read_of_rename`).
-/

namespace ParticleSim

/-- One thing after another succeeds when both do. -/
theorem except_bind_eq_ok {ε α β : Type} {x : Except ε α} {f : α → Except ε β} {b : β} :
    (x >>= f) = .ok b ↔ ∃ a, x = .ok a ∧ f a = .ok b := by
  cases x <;> simp [bind, Except.bind]

/-! ### Octets and parts of longer texts -/

theorem Text.encode_append (s t : String) : encode (s ++ t) = encode s ++ encode t := by
  simp [encode, String.toByteArray_append, ByteArray.data_append]

namespace Path

/-- Text without a slash that is put behind a path goes to its last part. -/
theorem parts_append {suffix : List Char} (h : '/' ∉ suffix) (part cs : List Char) :
    ∃ front last, parts part cs = front ++ [.ofList last] ∧
      parts part (cs ++ suffix) = front ++ [.ofList (last ++ suffix)] := by
  have hsuffix : ∀ part, parts part suffix = [.ofList (part ++ suffix)] := by
    induction suffix with
    | nil => simp [parts]
    | cons c suffix ih =>
        rw [List.mem_cons, not_or] at h
        intro part
        rw [parts.eq_3 _ _ _ fun e => h.1 e.symm, ih h.2]
        simp
  induction cs generalizing part with
  | nil => exact ⟨[], part, rfl, hsuffix part⟩
  | cons c cs ih =>
      by_cases hc : c = '/'
      · subst hc
        obtain ⟨front, last, hp, hs⟩ := ih []
        exact ⟨.ofList part :: front, last, congrArg _ hp, congrArg _ hs⟩
      · rw [List.cons_append, parts.eq_3 _ _ _ hc, parts.eq_3 _ _ _ hc]
        exact ih _

/-- A text with a slash at its end has nothing behind that. -/
theorem getLast?_parts (part : List Char) {cs : List Char} (h : cs.getLast? = some '/') :
    (parts part cs).getLast? = some "" := by
  induction cs generalizing part with
  | nil => cases h
  | cons c cs ih =>
      by_cases hcs : cs = []
      · subst hcs
        cases h
        rfl
      · rw [List.getLast?_cons_of_ne_nil hcs] at h
        by_cases hc : c = '/'
        · subst hc
          rw [parts, List.getLast?_cons, ih [] h]
          rfl
        · rw [parts.eq_3 _ _ _ hc, ih _ h]

/-- A part of three letters or more is a name. -/
theorem step?_eq_name {part : String} (h : 3 ≤ part.length) : step? part = some (.name part) := by
  rw [step?] <;> rintro rfl <;> exact absurd h (by decide)

/-- A part asks for a step into what has its name, or for a step that can always be taken. -/
theorem step?_cases (part : String) :
    step? part = some (.name part) ∨
      ∀ (fs : FileSystem) (place : Place), ∃ there,
        (step? part).toList.foldlM fs.enter place = .ok there := by
  rw [step?.eq_def]
  split
  · exact .inr fun fs place => ⟨place, rfl⟩
  · exact .inr fun fs place => ⟨place, rfl⟩
  · exact .inr fun fs place => ⟨place.dropLast, rfl⟩
  · exact .inl rfl

end Path

/-! ### Following paths -/

namespace FileSystem

variable {fs fs' : FileSystem} {path : String} {place here : Place} {name : String} {slash : Bool}
  {t : Target} {e : Option FileEntry} {content : Bytes}

/-- A step that is not the last is taken. -/
theorem follow_cons {step : PathStep} {steps : List PathStep} (h : steps ≠ []) :
    fs.follow slash place (step :: steps) =
      fs.enter place step >>= fun place => fs.follow slash place steps := by
  cases steps with
  | nil => exact absurd rfl h
  | cons step' steps => cases step <;> rfl

/-- A name at the end is not looked up. -/
theorem follow_concat_name {steps : List PathStep} :
    fs.follow slash place (steps ++ [.name name]) =
      steps.foldlM fs.enter place >>= fun here => .ok (.entry here name slash) := by
  induction steps generalizing place with
  | nil => rfl
  | cons step steps ih =>
      rw [List.cons_append, follow_cons (by simp), List.foldlM_cons, bind_assoc]
      exact congrArg _ (funext fun _ => ih)

theorem lookup_eq_ok :
    fs.lookup place name = .ok e ↔
      (Text.encode name).length ≤ Path.nameLimit ∧ e = fs.entries.find? (place ++ [name]) := by
  rw [lookup]
  split
  · next h => simp only [reduceCtorEq, false_iff, not_and]; omega
  · next h => simp only [Except.ok.injEq, eq_comm, and_iff_right (Nat.not_lt.mp h)]

theorem enter_name_eq_ok :
    fs.enter place (.name name) = .ok here ↔
      fs.lookup place name = .ok (some .directory) ∧ here = place ++ [name] := by
  rw [enter, except_bind_eq_ok]
  constructor
  · rintro ⟨_ | _ | _, h, ⟨⟩⟩
    exact ⟨h, rfl⟩
  · rintro ⟨h, rfl⟩
    exact ⟨_, h, rfl⟩

/-- A path whose every step can be taken leads to a directory. -/
theorem follow_of_walk (slash : Bool) {steps : List PathStep}
    (h : steps.foldlM fs.enter place = .ok here) :
    fs.follow slash place steps = .ok .directory ∨
      ∃ there name, fs.follow slash place steps = .ok (.entry there name slash) ∧
        fs.lookup there name = .ok (some .directory) := by
  induction steps generalizing place with
  | nil => exact .inl rfl
  | cons step steps ih =>
      obtain ⟨next, hstep, hsteps⟩ := except_bind_eq_ok.mp h
      by_cases hn : steps = []
      · subst hn
        cases step with
        | stay => exact .inl rfl
        | up => exact .inl rfl
        | name name => exact .inr ⟨place, name, rfl, (enter_name_eq_ok.mp hstep).1⟩
      · rw [follow_cons hn, hstep]
        exact ih hsteps

/-! ### What stands at a path -/

/-- Where a path leads and what stands there. -/
def stat (fs : FileSystem) (path : String) : Except IoFault (Target × Option FileEntry) := do
  match ← fs.locate path with
  | .directory => return (.directory, some .directory)
  | .entry place name slash => return (.entry place name slash, ← fs.lookup place name)

theorem stat_eq_directory : fs.stat path = .ok (.directory, e) ↔
    fs.locate path = .ok .directory ∧ e = some .directory := by
  rw [stat, except_bind_eq_ok]
  constructor
  · rintro ⟨_ | ⟨place, name, slash⟩, ht, h⟩
    · cases h
      exact ⟨ht, rfl⟩
    · obtain ⟨_, -, h⟩ := except_bind_eq_ok.mp h
      cases h
  · rintro ⟨ht, rfl⟩
    exact ⟨_, ht, rfl⟩

theorem stat_eq_entry : fs.stat path = .ok (.entry place name slash, e) ↔
    fs.locate path = .ok (.entry place name slash) ∧ fs.lookup place name = .ok e := by
  rw [stat, except_bind_eq_ok]
  constructor
  · rintro ⟨_ | ⟨place, name, slash⟩, ht, h⟩
    · cases h
    · obtain ⟨_, hl, h⟩ := except_bind_eq_ok.mp h
      cases h
      exact ⟨ht, hl⟩
  · rintro ⟨ht, hl⟩
    exact ⟨_, ht, except_bind_eq_ok.mpr ⟨e, hl, rfl⟩⟩

theorem create_eq_ok : fs.create path = .ok fs' ↔
    ∃ place name e, fs.stat path = .ok (.entry place name false, e) ∧ e ≠ some .directory ∧
      fs' = ⟨fs.entries.insert (place ++ [name]) (.file [])⟩ := by
  rw [create, except_bind_eq_ok]
  constructor
  · rintro ⟨_ | ⟨place, name, _ | _⟩, ht, h⟩
    · cases h
    · obtain ⟨e, hl, h⟩ := except_bind_eq_ok.mp h
      have he : e ≠ some .directory := by
        rintro rfl
        cases h
      refine ⟨place, name, e, stat_eq_entry.mpr ⟨ht, hl⟩, he, ?_⟩
      rcases e with _ | _ | _
      · exact (Except.ok.inj h).symm
      · exact (Except.ok.inj h).symm
      · exact absurd rfl he
    · cases h
  · rintro ⟨place, name, e, h, he, rfl⟩
    obtain ⟨ht, hl⟩ := stat_eq_entry.mp h
    refine ⟨_, ht, except_bind_eq_ok.mpr ⟨e, hl, ?_⟩⟩
    rcases e with _ | _ | _
    · rfl
    · rfl
    · exact absurd rfl he

theorem file_eq_ok : fs.file path = .ok (here, content) ↔
    ∃ place name, fs.stat path = .ok (.entry place name false, some (.file content)) ∧
      here = place ++ [name] := by
  rw [file, except_bind_eq_ok]
  constructor
  · rintro ⟨_ | ⟨place, name, slash⟩, ht, h⟩
    · cases h
    · obtain ⟨_ | _ | _, hl, h⟩ := except_bind_eq_ok.mp h
      · cases h
      · cases slash with
        | true => cases h
        | false =>
            cases h
            exact ⟨place, name, stat_eq_entry.mpr ⟨ht, hl⟩, rfl⟩
      · cases h
  · rintro ⟨place, name, h, rfl⟩
    obtain ⟨ht, hl⟩ := stat_eq_entry.mp h
    exact ⟨_, ht, except_bind_eq_ok.mpr ⟨_, hl, rfl⟩⟩

theorem read_eq_ok : fs.read path = .ok content ↔
    ∃ place name, fs.stat path = .ok (.entry place name false, some (.file content)) := by
  rw [read, except_bind_eq_ok]
  constructor
  · rintro ⟨⟨here, _⟩, h, ⟨⟩⟩
    obtain ⟨place, name, h, -⟩ := file_eq_ok.mp h
    exact ⟨place, name, h⟩
  · rintro ⟨place, name, h⟩
    exact ⟨_, file_eq_ok.mpr ⟨place, name, h, rfl⟩, rfl⟩

theorem remove_eq_ok : fs.remove path = .ok fs' ↔
    ∃ place name content, fs.stat path = .ok (.entry place name false, some (.file content)) ∧
      fs' = ⟨fs.entries.erase (place ++ [name])⟩ := by
  rw [remove, except_bind_eq_ok]
  constructor
  · rintro ⟨⟨here, content⟩, hf, ⟨⟩⟩
    obtain ⟨place, name, h, rfl⟩ := file_eq_ok.mp hf
    exact ⟨place, name, content, h, rfl⟩
  · rintro ⟨place, name, content, h, rfl⟩
    exact ⟨_, file_eq_ok.mpr ⟨place, name, h, rfl⟩, rfl⟩

theorem rename_eq_ok {source target : String} : fs.rename source target = .ok fs' ↔
    ∃ here content place name e, fs.file source = .ok (here, content) ∧
      fs.stat target = .ok (.entry place name false, e) ∧ e ≠ some .directory ∧
      fs' = if place ++ [name] = here then fs
        else ⟨(fs.entries.erase here).insert (place ++ [name]) (.file content)⟩ := by
  rw [rename, except_bind_eq_ok]
  constructor
  · rintro ⟨⟨here, content⟩, hs, h⟩
    obtain ⟨_ | ⟨place, name, slash⟩, ht, h⟩ := except_bind_eq_ok.mp h
    · cases h
    · obtain ⟨e, hl, h⟩ := except_bind_eq_ok.mp h
      cases slash with
      | true => cases h
      | false =>
          by_cases he : e = some .directory
          · rw [if_neg Bool.false_ne_true, if_pos he] at h
            cases h
          · rw [if_neg Bool.false_ne_true, if_neg he] at h
            refine ⟨here, content, place, name, e, hs, stat_eq_entry.mpr ⟨ht, hl⟩, he, ?_⟩
            rw [← Except.ok.inj ((apply_ite Except.ok _ _ _).trans h)]
  · rintro ⟨here, content, place, name, e, hs, h, he, rfl⟩
    obtain ⟨ht, hl⟩ := stat_eq_entry.mp h
    refine ⟨_, hs, except_bind_eq_ok.mpr ⟨_, ht, except_bind_eq_ok.mpr ⟨e, hl, ?_⟩⟩⟩
    rw [if_neg Bool.false_ne_true, if_neg he]
    split <;> rfl

/-! ### Changes at one place -/

end FileSystem

/-- The place that a path leads to, if it names one last. -/
def Target.place? : Target → Option Place
  | directory => none
  | entry place name _ => some (place ++ [name])

namespace FileSystem

variable {fs fs' : FileSystem} {path : String} {here : Place} {t : Target} {e : Option FileEntry}
  {content : Bytes}

/-- Two file systems differ at one place at most, and neither has a directory there. -/
structure SameBut (here : Place) (fs fs' : FileSystem) : Prop where
  others : ∀ place, place ≠ here → fs'.entries.find? place = fs.entries.find? place
  before : fs.entries.find? here ≠ some .directory
  after : fs'.entries.find? here ≠ some .directory

namespace SameBut

theorem insert (h : fs.entries.find? here = e) (he : e ≠ some .directory) (content : Bytes) :
    SameBut here fs ⟨fs.entries.insert here (.file content)⟩ where
  others place hp := (OrderedMap.find?_insert _ _ _ _).trans (if_neg hp)
  before := h ▸ he
  after := by simp [OrderedMap.find?_insert]

theorem erase (h : fs.entries.find? here = e) (he : e ≠ some .directory) :
    SameBut here fs ⟨fs.entries.erase here⟩ where
  others place hp := (OrderedMap.find?_erase _ _ _).trans (if_neg hp)
  before := h ▸ he
  after := by simp [OrderedMap.find?_erase]

/-- The same steps can be taken, because they go through directories. -/
theorem enter (h : SameBut here fs fs') {place next : Place} {step : PathStep}
    (hs : fs.enter place step = .ok next) : fs'.enter place step = .ok next := by
  cases step with
  | stay => exact hs
  | up => exact hs
  | name name =>
      obtain ⟨hl, rfl⟩ := enter_name_eq_ok.mp hs
      obtain ⟨hn, hd⟩ := lookup_eq_ok.mp hl
      refine enter_name_eq_ok.mpr ⟨lookup_eq_ok.mpr ⟨hn, ?_⟩, rfl⟩
      rw [h.others _ fun hp => h.before (hp ▸ hd.symm), hd]

theorem follow (h : SameBut here fs fs') {slash : Bool} {place : Place} {steps : List PathStep}
    (hs : fs.follow slash place steps = .ok t) : fs'.follow slash place steps = .ok t := by
  induction steps generalizing place with
  | nil => exact hs
  | cons step steps ih =>
      by_cases hn : steps = []
      · subst hn
        cases step <;> exact hs
      · rw [follow_cons hn] at hs ⊢
        obtain ⟨next, hstep, hs⟩ := except_bind_eq_ok.mp hs
        exact except_bind_eq_ok.mpr ⟨next, h.enter hstep, ih hs⟩

theorem locate (h : SameBut here fs fs') (hl : fs.locate path = .ok t) :
    fs'.locate path = .ok t := by
  obtain ⟨p, hp, hf⟩ := except_bind_eq_ok.mp hl
  exact except_bind_eq_ok.mpr ⟨p, hp, h.follow hf⟩

/-- **A change at one place is seen by the paths that lead there**, and by no others. -/
theorem stat (h : SameBut here fs fs') (hs : fs.stat path = .ok (t, e)) :
    fs'.stat path = .ok (t, if t.place? = some here then fs'.entries.find? here else e) := by
  cases t with
  | directory =>
      obtain ⟨hl, rfl⟩ := stat_eq_directory.mp hs
      exact stat_eq_directory.mpr ⟨h.locate hl, if_neg (by simp [Target.place?])⟩
  | entry place name slash =>
      obtain ⟨hl, hf⟩ := stat_eq_entry.mp hs
      obtain ⟨hn, rfl⟩ := lookup_eq_ok.mp hf
      refine stat_eq_entry.mpr ⟨h.locate hl, lookup_eq_ok.mpr ⟨hn, ?_⟩⟩
      rw [Target.place?]
      by_cases hp : place ++ [name] = here
      · rw [if_pos (congrArg some hp), hp]
      · rw [if_neg fun he => hp (Option.some.inj he), h.others _ hp]

theorem stat_of_ne (h : SameBut here fs fs') (hs : fs.stat path = .ok (t, e))
    (ht : t.place? ≠ some here) : fs'.stat path = .ok (t, e) := by
  rw [h.stat hs, if_neg ht]

theorem stat_of_eq {place : Place} {name : String} {slash : Bool}
    (h : SameBut (place ++ [name]) fs fs') (hs : fs.stat path = .ok (.entry place name slash, e)) :
    fs'.stat path = .ok (.entry place name slash, fs'.entries.find? (place ++ [name])) :=
  (h.stat hs).trans (congrArg (fun e => Except.ok (_, e)) (if_pos rfl))

end SameBut

/-! ### The steps of a path -/

/-- What stands at the end of a path is what is at its place. -/
theorem find?_of_stat (h : fs.stat path = .ok (t, e)) (ht : t.place? = some here) :
    fs.entries.find? here = e := by
  cases t with
  | directory => cases ht
  | entry place name slash =>
      cases ht
      exact (lookup_eq_ok.mp (stat_eq_entry.mp h).2).2.symm

/-- A path that ends in a name leads there if its other steps can be taken. -/
theorem stat_concat_name {steps : List PathStep} {name : String} {slash : Bool}
    (hp : Path.ofText path = .ok ⟨steps ++ [.name name], slash⟩) :
    fs.stat path = .ok (t, e) ↔ ∃ place, steps.foldlM fs.enter [] = .ok place ∧
      t = .entry place name slash ∧ fs.lookup place name = .ok e := by
  have hlocate : fs.locate path =
      steps.foldlM fs.enter [] >>= fun place => .ok (.entry place name slash) := by
    rw [locate, hp]
    exact follow_concat_name
  rw [stat, hlocate, except_bind_eq_ok]
  constructor
  · rintro ⟨_, ht, h⟩
    obtain ⟨place, hwalk, ⟨⟩⟩ := except_bind_eq_ok.mp ht
    obtain ⟨_, hl, ⟨⟩⟩ := except_bind_eq_ok.mp h
    exact ⟨place, hwalk, rfl, hl⟩
  · rintro ⟨place, hwalk, rfl, hl⟩
    exact ⟨_, except_bind_eq_ok.mpr ⟨place, hwalk, rfl⟩, except_bind_eq_ok.mpr ⟨e, hl, rfl⟩⟩

/-- A path whose every step can be taken leads to a directory. -/
theorem stat_of_walk {p : Path} (hp : Path.ofText path = .ok p)
    (h : p.steps.foldlM fs.enter [] = .ok here) : ∃ t, fs.stat path = .ok (t, some .directory) := by
  rcases follow_of_walk p.slash h with hf | ⟨place, name, hf, hl⟩
  · exact ⟨_, stat_eq_directory.mpr ⟨except_bind_eq_ok.mpr ⟨p, hp, hf⟩, rfl⟩⟩
  · exact ⟨_, stat_eq_entry.mpr ⟨except_bind_eq_ok.mpr ⟨p, hp, hf⟩, hl⟩⟩

end FileSystem

/-! ### Streams beside their paths -/

/-- The steps of a path and of the one beside it are the same up to the last part, which is a name
in the second and something shorter in the first. -/
theorem Path.of_partial {path : String} {p : Path} (h : ofText (partialPath path) = .ok p) :
    ∃ steps last slash, ofText path = .ok ⟨steps ++ (step? last).toList, slash⟩ ∧
      (slash = true → last = "") ∧ p = ⟨steps ++ [.name (partialPath last)], false⟩ := by
  have hslash : '/' ∉ ".partial".toList := by decide
  obtain ⟨front, last, hp, hs⟩ := parts_append hslash [] path.toList
  have hlist : (partialPath path).toList = path.toList ++ ".partial".toList :=
    String.toList_append
  have hlast : String.ofList (last ++ ".partial".toList) = partialPath (.ofList last) := by
    rw [String.ofList_append, String.ofList_toList]
    rfl
  have hname : step? (partialPath (.ofList last)) = some (.name (partialPath (.ofList last))) :=
    step?_eq_name (by
      rw [partialPath, String.length_append]
      exact Nat.le_add_left_of_le (by decide))
  rw [ofText, hlist] at h
  split at h
  · cases h
  split at h
  · cases h
  next hnul hlimit =>
  refine ⟨front.filterMap step?, .ofList last, path.toList.getLast? = some '/', ?_,
    fun hslash => ?_, ?_⟩
  · rw [ofText, if_neg (by simp_all), if_neg, hp, List.filterMap_append]
    · cases hs : step? (.ofList last) <;> simp [hs]
    · rw [partialPath, Text.encode_append, List.length_append] at hlimit
      omega
  · have hempty := getLast?_parts [] (of_decide_eq_true hslash)
    rw [hp, List.getLast?_concat] at hempty
    exact Option.some.inj hempty
  · rw [hs, hlast, List.filterMap_append] at h
    have hend : (path.toList ++ ".partial".toList).getLast? = some 'l' := by simp
    rw [hend] at h
    simpa [hname] using (Except.ok.inj h).symm

namespace FileSystem

variable {fs fs' : FileSystem} {path : String} {t : Target} {e : Option FileEntry} {place : Place}
  {name : String} {content : Bytes}

/-- **A stream is written beside its path**: where the first can be written, the second leads to
another place, or to a directory, and it needs none. -/
theorem stat_of_partial (h : fs.stat (partialPath path) = .ok (t, e)) (he : e ≠ some .directory) :
    ∃ place name t' e', t = .entry place name false ∧ fs.stat path = .ok (t', e') ∧
      t'.place? ≠ some (place ++ [name]) ∧
      (e' ≠ some .directory → ∃ place' name', t' = .entry place' name' false) := by
  obtain ⟨p, hp⟩ : ∃ p, Path.ofText (partialPath path) = .ok p := by
    cases hp : Path.ofText (partialPath path) with
    | ok p => exact ⟨p, rfl⟩
    | error fault =>
        rw [stat, locate, hp] at h
        cases h
  obtain ⟨steps, last, slash, hpath, hslash, rfl⟩ := Path.of_partial hp
  obtain ⟨place, hwalk, rfl, hl⟩ := (stat_concat_name hp).mp h
  refine ⟨place, partialPath last, ?_⟩
  rcases Path.step?_cases last with hlast | hlast
  · -- the last name of the path is shorter, so it is another one
    obtain ⟨hlimit, -⟩ := lookup_eq_ok.mp hl
    rw [partialPath, Text.encode_append, List.length_append] at hlimit
    rw [hlast] at hpath
    obtain rfl : slash = false := by
      refine Bool.eq_false_iff.mpr fun hs => ?_
      rw [hslash hs] at hlast
      cases hlast
    refine ⟨_, _, rfl, (stat_concat_name hpath).mpr
      ⟨place, hwalk, rfl, lookup_eq_ok.mpr ⟨by omega, rfl⟩⟩, fun hplace => ?_,
      fun _ => ⟨place, last, rfl⟩⟩
    have hsame : last = partialPath last := by simpa [Target.place?] using hplace
    have hlength := congrArg String.length hsame
    rw [partialPath, String.length_append] at hlength
    exact absurd hlength (Nat.ne_of_lt (Nat.lt_add_of_pos_right (by decide)))
  · -- otherwise all steps can be taken
    obtain ⟨there, hthere⟩ := hlast fs place
    obtain ⟨t', ht⟩ := stat_of_walk hpath
      ((List.foldlM_append).trans (except_bind_eq_ok.mpr ⟨place, hwalk, hthere⟩))
    exact ⟨t', _, rfl, ht, fun hplace =>
      he ((find?_of_stat h rfl).symm.trans (find?_of_stat ht hplace)), fun hd => absurd rfl hd⟩

/-- A change where the stream goes is not seen at the path. -/
theorem SameBut.stat_partial (h : SameBut (place ++ [name]) fs fs')
    (hs : fs.stat (partialPath path) = .ok (.entry place name false, e))
    (he : e ≠ some .directory) :
    fs'.stat path = fs.stat path ∧ fs'.stat (partialPath path) =
      .ok (.entry place name false, fs'.entries.find? (place ++ [name])) := by
  obtain ⟨_, _, t, e', ⟨⟩, ht, hne, -⟩ := stat_of_partial hs he
  exact ⟨(h.stat_of_ne ht hne).trans ht.symm, h.stat_of_eq hs⟩

theorem file_ne_directory : some (FileEntry.file content) ≠ some .directory := by
  rintro ⟨⟩

theorem read_of_none {slash : Bool} (h : fs.stat path = .ok (.entry place name slash, none)) :
    fs.read path = .error .noSuchFile := by
  obtain ⟨hl, hn⟩ := stat_eq_entry.mp h
  rw [read, file, hl]
  show ((fs.lookup place name >>= _) >>= _) = _
  rw [hn]
  rfl

theorem read_of_create (h : fs.create (partialPath path) = .ok fs') :
    fs'.read (partialPath path) = .ok [] ∧ fs'.stat path = fs.stat path := by
  obtain ⟨place, name, e, hs, he, rfl⟩ := create_eq_ok.mp h
  obtain ⟨hpath, hstat⟩ := (SameBut.insert (find?_of_stat hs rfl) he []).stat_partial hs he
  rw [OrderedMap.find?_insert, if_pos rfl] at hstat
  exact ⟨read_eq_ok.mpr ⟨place, name, hstat⟩, hpath⟩

theorem read_write {old : Bytes} (h : fs.read (partialPath path) = .ok old) (content : Bytes) :
    (fs.write (partialPath path) content).read (partialPath path) = .ok content ∧
      (fs.write (partialPath path) content).stat path = fs.stat path := by
  obtain ⟨place, name, hs⟩ := read_eq_ok.mp h
  obtain ⟨hl, -⟩ := stat_eq_entry.mp hs
  have hfile : (fs.write (partialPath path) content).entries.find? (place ++ [name]) =
      some (.file content) := by
    rw [write, hl, OrderedMap.find?_modify, if_pos rfl, find?_of_stat hs rfl]
    rfl
  have hsame : SameBut (place ++ [name]) fs (fs.write (partialPath path) content) :=
    { others := fun place' hp => by rw [write, hl, OrderedMap.find?_modify, if_neg hp]
      before := by simp [find?_of_stat hs rfl]
      after := by simp [hfile] }
  obtain ⟨hpath, hstat⟩ := hsame.stat_partial hs file_ne_directory
  exact ⟨read_eq_ok.mpr ⟨place, name, hfile ▸ hstat⟩, hpath⟩

theorem read_of_remove (h : fs.remove (partialPath path) = .ok fs') :
    fs'.read (partialPath path) = .error .noSuchFile ∧ fs'.stat path = fs.stat path := by
  obtain ⟨place, name, content, hs, rfl⟩ := remove_eq_ok.mp h
  have hsame := SameBut.erase (find?_of_stat hs rfl) file_ne_directory
  obtain ⟨hpath, hstat⟩ := hsame.stat_partial hs file_ne_directory
  rw [OrderedMap.find?_erase, if_pos rfl] at hstat
  exact ⟨read_of_none hstat, hpath⟩

/-- The stream gets its name unless that is a directory's. -/
theorem exists_rename_iff (h : fs.read (partialPath path) = .ok content) :
    (∃ fs', fs.rename (partialPath path) path = .ok fs') ↔
      ¬ ∃ t, fs.stat path = .ok (t, some .directory) := by
  obtain ⟨place, name, hs⟩ := read_eq_ok.mp h
  constructor
  · rintro ⟨fs', h⟩ ⟨t, hd⟩
    obtain ⟨_, _, _, _, e, -, ht, he, -⟩ := rename_eq_ok.mp h
    rw [hd] at ht
    cases ht
    exact he rfl
  · intro hd
    obtain ⟨_, _, t, e, -, ht, -, hname⟩ := stat_of_partial hs file_ne_directory
    have he : e ≠ some .directory := fun he => hd ⟨t, he ▸ ht⟩
    obtain ⟨place', name', rfl⟩ := hname he
    exact ⟨_, rename_eq_ok.mpr ⟨_, _, _, _, _, file_eq_ok.mpr ⟨_, _, hs, rfl⟩, ht, he, rfl⟩⟩

/-- With its name, the stream is at the path and no longer beside it. -/
theorem read_of_rename (h : fs.read (partialPath path) = .ok content)
    (hr : fs.rename (partialPath path) path = .ok fs') :
    fs'.read path = .ok content ∧ fs'.read (partialPath path) = .error .noSuchFile := by
  obtain ⟨place, name, hs⟩ := read_eq_ok.mp h
  obtain ⟨here, _, place', name', e, hf, ht, he, rfl⟩ := rename_eq_ok.mp hr
  obtain ⟨_, _, hs', rfl⟩ := file_eq_ok.mp hf
  obtain ⟨⟩ := Except.ok.inj (hs.symm.trans hs')
  obtain ⟨_, _, _, _, ⟨⟩, ht', hne, -⟩ := stat_of_partial hs file_ne_directory
  obtain ⟨⟩ := Except.ok.inj (ht.symm.trans ht')
  have hplace : place' ++ [name'] ≠ place ++ [name] := fun h => hne (congrArg some h)
  rw [if_neg hplace]
  -- first the stream goes from beside the path, then it comes to the path
  have herase := SameBut.erase (find?_of_stat hs rfl) file_ne_directory
  have hinsert := SameBut.insert
    ((herase.others _ hplace).trans (find?_of_stat ht rfl)) he content
  have hpath := hinsert.stat_of_eq (herase.stat_of_ne ht hne)
  have hbeside := hinsert.stat_of_ne (herase.stat_of_eq hs) fun h =>
    hplace (Option.some.inj h).symm
  rw [OrderedMap.find?_insert, if_pos rfl] at hpath
  rw [OrderedMap.find?_erase, if_pos rfl] at hbeside
  exact ⟨read_eq_ok.mpr ⟨_, _, hpath⟩, read_of_none hbeside⟩

end FileSystem

end ParticleSim
