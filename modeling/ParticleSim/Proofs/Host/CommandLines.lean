import ParticleSim.Host.Config
import ParticleSim.Proofs.Checkpoint.Words
import Mathlib.Data.List.TakeWhile

/-!
# Host — Command lines

A command line is scanned in turns.  At each turn the scan stands at an argument in flag position: it
keeps an argument that is no service flag, or it takes a flag with its value, which is one argument
or two (`ServiceConfig.Scan.Turn`).  What a turn leaves to do decides what the whole comes to
(`Scan.Turn.outcome_eq`), and so for any number of turns; and a turn sees no further than what it
takes (`Scan.Turn.append`).

* `strip_eq_ok_iff`: a command line is stripped when the scan reaches its end.
* `Scan.Reaches.exists_append`: what a scan has behind it is a prefix, and it would get past that
  prefix in front of any other arguments.
* `strip_laws`: stripping goes along a command line from left to right, does not care whether a flag
  and its value are one argument or two, keeps the other arguments in order and has nothing left to
  do on them, and fails without a trace.
-/

namespace ParticleSim

/-! ### Arguments -/

@[simp] theorem ServiceFlag.ofText?_text (flag : ServiceFlag) : ofText? flag.text = some flag := by
  cases flag <;> decide

theorem ServiceFlag.text_of_ofText? {s : String} {flag : ServiceFlag} (h : ofText? s = some flag) :
    flag.text = s := by
  rw [ofText?] at h
  simpa using List.find?_some h

/-- The name of a flag is no setting. -/
theorem ServiceFlag.equals_not_mem_text (flag : ServiceFlag) : '=' ∉ flag.text.toList := by
  cases flag <;> decide

namespace ServiceConfig

theorem splitArgument_of_not_mem {name : String} (h : '=' ∉ name.toList) :
    splitArgument name = (name, none) := by
  have hall : name.toList.dropWhile (· ≠ '=') = [] :=
    List.dropWhile_eq_nil_iff.mpr fun c hc => decide_eq_true (ne_of_mem_of_not_mem hc h)
  rw [splitArgument]
  simp only [hall]

/-- A setting is split at the first equals sign, whatever the value has in it. -/
theorem splitArgument_setting {name : String} (h : '=' ∉ name.toList) (value : String) :
    splitArgument (name ++ "=" ++ value) = (name, some value) := by
  have hname : ∀ c ∈ name.toList, decide (c ≠ '=') = true :=
    fun c hc => decide_eq_true (ne_of_mem_of_not_mem hc h)
  have hchars : (name ++ "=" ++ value).toList = name.toList ++ '=' :: value.toList := by
    simp [String.toList_append]
  rw [splitArgument]
  simp only [hchars, List.dropWhile_append_of_pos hname, List.takeWhile_append_of_pos hname]
  simp

/-! ### Turns -/

/-- A scan of a command line: the configuration so far, the arguments kept, and those still to come,
of which the first is in flag position. -/
structure Scan where
  config : ServiceConfig
  kept : List String
  rest : List String

namespace Scan

/-- One turn of a scan. -/
inductive Turn : Scan → Scan → Prop where
  /-- The argument is no service flag. -/
  | keep {c : ServiceConfig} {kept rest : List String} {arg : String}
      (other : ServiceFlag.ofText? (splitArgument arg).1 = none) :
      Turn ⟨c, kept, arg :: rest⟩ ⟨c, kept ++ [arg], rest⟩
  /-- The argument is a flag with its value. -/
  | setting {c c' : ServiceConfig} {kept rest : List String} {arg value : String}
      {flag : ServiceFlag} (split : splitArgument arg = (flag.text, some value))
      (set : c.setFlag flag value = .ok c') : Turn ⟨c, kept, arg :: rest⟩ ⟨c', kept, rest⟩
  /-- The argument is a flag, and the next one its value. -/
  | pair {c c' : ServiceConfig} {kept rest : List String} {arg value : String}
      {flag : ServiceFlag} (split : splitArgument arg = (flag.text, none))
      (set : c.setFlag flag value = .ok c') :
      Turn ⟨c, kept, arg :: value :: rest⟩ ⟨c', kept, rest⟩

/-- From one scan to another in any number of turns. -/
inductive Reaches : Scan → Scan → Prop where
  | refl (s : Scan) : Reaches s s
  | more {s s₁ s' : Scan} (turn : Turn s s₁) (later : Reaches s₁ s') : Reaches s s'

/-- What a scan comes to. -/
def outcome (s : Scan) : Except ConfigError (ServiceConfig × List String) :=
  (s.config.strip s.rest).map fun (c, kept) => (c, s.kept ++ kept)

/-- The scan with more arguments to come. -/
def append (s : Scan) (more : List String) : Scan := { s with rest := s.rest ++ more }

end Scan

variable {c c' : ServiceConfig} {arg value : String} {flag : ServiceFlag}
  {args kept more : List String}

/-! ### What an argument does -/

theorem strip_keep (other : ServiceFlag.ofText? (splitArgument arg).1 = none) :
    c.strip (arg :: args) = (c.strip args).map fun (c, kept) => (c, arg :: kept) := by
  rw [strip.eq_def]
  simp only [other]
  cases c.strip args <;> rfl

theorem strip_setting (split : splitArgument arg = (flag.text, some value)) :
    c.strip (arg :: args) = (c.setFlag flag value).bind fun c => c.strip args := by
  rw [strip.eq_def]
  simp only [split, ServiceFlag.ofText?_text]
  rfl

theorem strip_pair (split : splitArgument arg = (flag.text, none)) :
    c.strip (arg :: value :: args) = (c.setFlag flag value).bind fun c => c.strip args := by
  rw [strip.eq_def]
  simp only [split, ServiceFlag.ofText?_text]
  rfl

/-- A flag without a value is refused. -/
theorem strip_missing (split : splitArgument arg = (flag.text, none)) :
    c.strip [arg] = .error (.missingValue flag) := by
  rw [strip.eq_def]
  simp only [split, ServiceFlag.ofText?_text]

/-- **One argument or two**: a flag with its value in it does what the flag and then the value do. -/
theorem strip_setting_eq_pair (flag : ServiceFlag) (value : String) :
    c.strip ((flag.text ++ "=" ++ value) :: args) = c.strip (flag.text :: value :: args) := by
  rw [strip_setting (splitArgument_setting flag.equals_not_mem_text value),
    strip_pair (splitArgument_of_not_mem flag.equals_not_mem_text)]

namespace Scan

variable {s s' : Scan}

/-! ### What a turn leaves -/

/-- **A turn leaves what the scan comes to.** -/
theorem Turn.outcome_eq (h : Turn s s') : s.outcome = s'.outcome := by
  cases h with
  | @keep c kept rest arg other =>
      simp only [outcome, strip_keep other]
      cases c.strip rest with
      | error e => rfl
      | ok r => simp [Except.map]
  | setting split set => simp only [outcome, strip_setting split, set, Except.bind]
  | pair split set => simp only [outcome, strip_pair split, set, Except.bind]

/-- A turn does not look at what it does not take. -/
theorem Turn.append (h : Turn s s') (more : List String) : Turn (s.append more) (s'.append more) := by
  cases h with
  | keep other => exact .keep other
  | setting split set => exact .setting split set
  | pair split set => exact .pair split set

/-- What a turn takes stands at the front, and it would take the same in front of anything. -/
theorem Turn.exists_append (h : Turn s s') :
    ∃ taken, s.rest = taken ++ s'.rest ∧
      ∀ rest, Turn { s with rest := taken ++ rest } { s' with rest := rest } := by
  cases h with
  | keep other => exact ⟨[_], rfl, fun _ => .keep other⟩
  | setting split set => exact ⟨[_], rfl, fun _ => .setting split set⟩
  | pair split set => exact ⟨[_, _], rfl, fun _ => .pair split set⟩

/-! ### Runs of turns -/

theorem Reaches.outcome_eq (h : Reaches s s') : s.outcome = s'.outcome := by
  induction h with
  | refl => rfl
  | more turn _ ih => exact turn.outcome_eq.trans ih

theorem Reaches.append (h : Reaches s s') (more : List String) :
    Reaches (s.append more) (s'.append more) := by
  induction h with
  | refl s => exact .refl _
  | more turn _ ih => exact .more (turn.append more) ih

/-- **What a scan has behind it is a prefix**, and it gets past that prefix whatever follows. -/
theorem Reaches.exists_append (h : Reaches s s') :
    ∃ taken, s.rest = taken ++ s'.rest ∧
      ∀ rest, Reaches { s with rest := taken ++ rest } { s' with rest := rest } := by
  induction h with
  | refl s => exact ⟨[], rfl, fun _ => .refl _⟩
  | more turn _ ih =>
      obtain ⟨first, hfirst, hturn⟩ := turn.exists_append
      obtain ⟨taken, htaken, hreaches⟩ := ih
      refine ⟨first ++ taken, by rw [hfirst, htaken, List.append_assoc], fun rest => ?_⟩
      rw [List.append_assoc]
      exact .more (hturn _) (hreaches rest)

/-- What is kept grows by arguments that were to come. -/
theorem Reaches.sublist (h : Reaches s s') :
    (s'.kept ++ s'.rest).Sublist (s.kept ++ s.rest) := by
  induction h with
  | refl => exact .refl _
  | more turn _ ih =>
      refine ih.trans ?_
      cases turn with
      | keep => simp
      | setting => exact (List.sublist_cons_self _ _).append_left _
      | pair => exact ((List.sublist_cons_self _ _).trans (List.sublist_cons_self _ _)).append_left _

/-- Whatever is kept was no service flag. -/
theorem Reaches.others (h : Reaches s s')
    (others : ∀ arg ∈ s.kept, ServiceFlag.ofText? (splitArgument arg).1 = none) :
    ∀ arg ∈ s'.kept, ServiceFlag.ofText? (splitArgument arg).1 = none := by
  induction h with
  | refl => exact others
  | more turn _ ih =>
      refine ih ?_
      cases turn with
      | keep other =>
          rintro arg harg
          rcases List.mem_append.mp harg with harg | harg
          · exact others arg harg
          · rwa [List.mem_singleton.mp harg]
      | setting | pair => exact others

end Scan

/-! ### Stripping -/

/-- A flag and its value, set in a command line that is stripped. -/
theorem exists_set_of_bind (h : (c.setFlag flag value).bind (fun c => c.strip args) = .ok (c', kept)) :
    ∃ c₁, c.setFlag flag value = .ok c₁ ∧ c₁.strip args = .ok (c', kept) := by
  cases hset : c.setFlag flag value with
  | error e => rw [hset] at h; cases h
  | ok c₁ => rw [hset] at h; exact ⟨c₁, rfl, h⟩

/-- The scan of a command line that is stripped reaches its end. -/
theorem reaches_of_strip (h : c.strip args = .ok (c', kept)) (before : List String) :
    Scan.Reaches ⟨c, before, args⟩ ⟨c', before ++ kept, []⟩ := by
  induction c, args using strip.induct generalizing kept before with
  | case1 c =>
      obtain ⟨rfl, rfl⟩ := Prod.mk.inj (Except.ok.inj h)
      rw [List.append_nil]
      exact .refl _
  | case2 c arg args other ih =>
      rw [strip_keep other] at h
      cases hstrip : c.strip args with
      | error e => rw [hstrip] at h; cases h
      | ok r =>
          obtain ⟨c₁, kept₁⟩ := r
          rw [hstrip] at h
          obtain ⟨rfl, rfl⟩ := Prod.mk.inj (Except.ok.inj h)
          have hreaches := ih hstrip (before ++ [arg])
          rw [List.append_assoc] at hreaches
          exact .more (.keep other) hreaches
  | case3 c arg flag value args hvalue hflag ih =>
      have split : splitArgument arg = (flag.text, some value) :=
        Prod.ext (ServiceFlag.text_of_ofText? hflag).symm hvalue
      rw [strip_setting split] at h
      obtain ⟨c₁, hset, hrest⟩ := exists_set_of_bind h
      exact .more (.setting split hset) (ih c₁ hrest before)
  | case4 c arg flag value args hvalue hflag ih =>
      have split : splitArgument arg = (flag.text, none) :=
        Prod.ext (ServiceFlag.text_of_ofText? hflag).symm hvalue
      rw [strip_pair split] at h
      obtain ⟨c₁, hset, hrest⟩ := exists_set_of_bind h
      exact .more (.pair split hset) (ih c₁ hrest before)
  | case5 c arg flag hvalue hflag =>
      rw [strip_missing (Prod.ext (ServiceFlag.text_of_ofText? hflag).symm hvalue)] at h
      cases h

theorem outcome_start : Scan.outcome ⟨c, [], args⟩ = c.strip args := by
  rw [Scan.outcome]
  cases c.strip args <;> rfl

/-- **A command line is stripped when the scan reaches its end.** -/
theorem strip_eq_ok_iff :
    c.strip args = .ok (c', kept) ↔ Scan.Reaches ⟨c, [], args⟩ ⟨c', kept, []⟩ := by
  constructor
  · exact fun h => reaches_of_strip h []
  · intro h
    rw [← outcome_start, h.outcome_eq]
    simp [Scan.outcome, strip, Except.map]

/-- What was stripped in front does not matter for the rest. -/
theorem strip_append (h : c.strip args = .ok (c', kept)) :
    c.strip (args ++ more) = (c'.strip more).map fun (c, kept') => (c, kept ++ kept') := by
  rw [← outcome_start]
  exact ((strip_eq_ok_iff.mp h).append more).outcome_eq

/-- Arguments that are no flags are all kept. -/
theorem strip_of_others
    (others : ∀ arg ∈ args, ServiceFlag.ofText? (splitArgument arg).1 = none) :
    c.strip args = .ok (c, args) := by
  induction args with
  | nil => rfl
  | cons arg args ih =>
      obtain ⟨hfirst, hrest⟩ := List.forall_mem_cons.mp others
      rw [strip_keep hfirst, ih hrest]
      rfl

/-- A flag with its value in one argument, in flag position, is as good as two arguments. -/
theorem strip_of_reaches {before after : List String} {c₁ : ServiceConfig}
    (h : Scan.Reaches ⟨c, [], before ++ (flag.text ++ "=" ++ value) :: after⟩
      ⟨c₁, kept, (flag.text ++ "=" ++ value) :: after⟩) :
    c.strip (before ++ flag.text :: value :: after) =
      c.strip (before ++ (flag.text ++ "=" ++ value) :: after) := by
  obtain ⟨taken, htaken, hreaches⟩ := h.exists_append
  obtain rfl : before = taken := List.append_cancel_right htaken
  rw [← outcome_start, ← outcome_start, (hreaches _).outcome_eq, h.outcome_eq, Scan.outcome,
    Scan.outcome, strip_setting_eq_pair]

/-! ### In place -/

theorem stripInPlace_of_ok {s : ServiceConfig × List String} (h : c.strip args = .ok s) :
    stripInPlace (c, args) = .ok () s := by
  rw [stripInPlace, get_bind]
  simp only [h]
  rfl

/-- A command line that is refused is left as it is, and so is the configuration. -/
theorem stripInPlace_of_error {e : ConfigError} (h : c.strip args = .error e) :
    stripInPlace (c, args) = .error e (c, args) := by
  rw [stripInPlace, get_bind]
  simp only [h]
  rfl

theorem stripInPlace_eq_ok {s : ServiceConfig × List String} :
    stripInPlace (c, args) = .ok () s ↔ c.strip args = .ok s := by
  refine ⟨fun h => ?_, stripInPlace_of_ok⟩
  cases hs : c.strip args with
  | ok after =>
      rw [stripInPlace_of_ok hs] at h
      cases h
      rfl
  | error e =>
      rw [stripInPlace_of_error hs] at h
      cases h

theorem stripInPlace_eq_error {e : ConfigError} {s : ServiceConfig × List String} :
    stripInPlace (c, args) = .error e s ↔ c.strip args = .error e ∧ s = (c, args) := by
  constructor
  · intro h
    cases hs : c.strip args with
    | ok after =>
        rw [stripInPlace_of_ok hs] at h
        cases h
    | error e' =>
        rw [stripInPlace_of_error hs] at h
        cases h
        exact ⟨rfl, rfl⟩
  · rintro ⟨hs, rfl⟩
    exact stripInPlace_of_error hs

/-- **The laws of stripping.**  A command line is stripped from left to right: if its front is
stripped, then what comes of the whole is what comes of the rest under the configuration that the
front has set, with the arguments kept of both, or the same error.  What is kept are arguments of
the command line in their order, and to strip them changes nothing, under any configuration.  Where
the scan reaches a service flag with its value in one argument, two arguments do the same.  And in
place, all of it happens or nothing. -/
theorem strip_laws (c : ServiceConfig) (args : List String) :
    (∀ c' kept, c.strip args = .ok (c', kept) →
      (∀ more, c.strip (args ++ more) =
        (c'.strip more).map fun (c, kept') => (c, kept ++ kept')) ∧
      kept.Sublist args ∧ ∀ c₁ : ServiceConfig, c₁.strip kept = .ok (c₁, kept)) ∧
    (∀ (flag : ServiceFlag) (value : String) before after c₁ kept,
      args = before ++ (flag.text ++ "=" ++ value) :: after →
      Scan.Reaches ⟨c, [], args⟩ ⟨c₁, kept, (flag.text ++ "=" ++ value) :: after⟩ →
      c.strip (before ++ flag.text :: value :: after) = c.strip args) ∧
    (∀ s, stripInPlace (c, args) = .ok () s ↔ c.strip args = .ok s) ∧
    ∀ e s, stripInPlace (c, args) = .error e s ↔ c.strip args = .error e ∧ s = (c, args) := by
  refine ⟨fun c' kept h => ⟨fun more => strip_append h, ?_, fun c₁ => strip_of_others ?_⟩, ?_,
    fun s => stripInPlace_eq_ok, fun e s => stripInPlace_eq_error⟩
  · simpa using (strip_eq_ok_iff.mp h).sublist
  · exact (strip_eq_ok_iff.mp h).others (by simp)
  · rintro flag value before after c₁ kept rfl h
    exact strip_of_reaches h

/-- Three settings between two other arguments. -/
def sampleLine : List String :=
  ["deck", "--tpp", "4", "--serial.n_pipeline=2", "--tpp=3", "out"]

theorem strip_laws_sample :
    strip {} (sampleLine ++ ["--dispatch_to_host", "0"]) =
        .ok (⟨3, 2, false, false⟩, ["deck", "out"]) ∧
    strip {} (sampleLine ++ ["--dispatch_to_host"]) = .error (.missingValue .dispatchToHost) ∧
    strip ⟨3, 2, true, false⟩ ["deck", "out"] = .ok (⟨3, 2, true, false⟩, ["deck", "out"]) ∧
    strip {} ["deck", "--tpp", "4", "--serial.n_pipeline", "2", "--tpp=3", "out"] =
      strip {} sampleLine := by
  have hstrip : strip {} sampleLine = .ok (⟨3, 2, true, false⟩, ["deck", "out"]) := by
    decide +kernel
  obtain ⟨hlaws, htwo, -⟩ := strip_laws {} sampleLine
  obtain ⟨happend, -, hagain⟩ := hlaws _ _ hstrip
  have hreaches : Scan.Reaches ⟨{}, [], sampleLine⟩
      ⟨⟨4, 1, true, false⟩, ["deck"], ["--serial.n_pipeline=2", "--tpp=3", "out"]⟩ :=
    .more (.keep (by decide)) (.more (.pair (show _ = (ServiceFlag.threadPipelines.text, none) by
      decide) (by decide +kernel)) (.refl _))
  refine ⟨?_, ?_, hagain _, htwo .serialPipelines "2" ["deck", "--tpp", "4"] ["--tpp=3", "out"] _ _
    rfl hreaches⟩
  · rw [happend]
    decide +kernel
  · rw [happend]
    decide +kernel

end ServiceConfig

end ParticleSim
