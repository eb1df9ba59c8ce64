import TimedTasks.Proofs.Text.Spelling
import TimedTasks.Config.Environment

/-!
# Overriding, all or up to a fault

The fields of a configuration are overridden one after the other, each by what its variable spells
(`Config.Field.Reads`), and a field whose variable is not set stays as it is.  If every variable
that is set can be read, all of this happens (`Config.overrideFields_eq_ok`), and doing it once
more changes nothing.  Otherwise the first variable that cannot be read is reported, the fields
before its own have been overridden, and this field and those behind it are as they were
(`Config.overrideFields_eq_error`).
-/

namespace TimedTasks

namespace Config

variable {config after : Config} {environment : Environment} {field other : Field} {text : String}
variable {fields : List Field}

/-! ## Fields -/

/-- Two configurations have the same value in a field. -/
def Field.Agree (field : Field) (first second : Config) : Prop :=
  match field with
  | workers => first.workers = second.workers
  | capacity => first.capacity = second.capacity
  | policy => first.policy = second.policy
  | threadName => first.threadName = second.threadName

/-- A configuration has in a field what a text says. -/
def Field.Reads (field : Field) (text : String) (config : Config) : Prop :=
  match field with
  | workers => Text.Spells text config.workers
  | capacity => Text.Spells text config.capacity
  | policy => config.policy.IsNamedBy text
  | threadName => config.threadName = text

/-- A text says something about a field: a number for the numbers, the name of a policy for the
policy, and anything for the name of the threads. -/
def Field.Readable (field : Field) (text : String) : Prop :=
  match field with
  | workers | capacity => ∃ number, Text.Spells text number
  | policy => ∃ policy : FailurePolicy, policy.IsNamedBy text
  | threadName => True

/-- What is reported of a text that says nothing about a field. -/
def Field.fault (field : Field) (text : String) : ConfigFault :=
  match field with
  | policy => .unknownPolicy (Text.lowerAscii (Text.strip text))
  | workers | capacity | threadName => .notANumber field.variableName text

/-- How it is reported: a number as it is written, a policy without blanks and capitals. -/
def Field.complaint (field : Field) (text : String) : String :=
  match field with
  | policy =>
    "unknown failure policy '" ++ Text.lowerAscii (Text.strip text) ++
      "' (expected 'continue' or 'cancel')"
  | workers | capacity | threadName =>
    field.variableName ++ ": expected a number, got '" ++ text ++ "'"

/-- What becomes of a field that is overridden: it is what its variable says, if that is set. -/
def Field.Overridden (field : Field) (environment : Environment) (before after : Config) : Prop :=
  match environment.text? field.variableName with
  | some text => field.Reads text after
  | none => field.Agree after before

theorem Field.mem_all (field : Field) : field ∈ all := by
  cases field <;> decide

theorem Field.message_fault (field : Field) (text : String) :
    (field.fault text).message = field.complaint text := by
  cases field <;> rfl

theorem Field.Agree.refl (field : Field) (config : Config) : field.Agree config config := by
  cases field <;> rfl

theorem Field.Agree.trans {first second third : Config} (hfirst : field.Agree first second)
    (hsecond : field.Agree second third) : field.Agree first third := by
  cases field <;> exact Eq.trans hfirst hsecond

theorem Field.Agree.symm {first second : Config} (hagree : field.Agree first second) :
    field.Agree second first := by
  cases field <;> exact Eq.symm hagree

theorem eq_of_agree {first second : Config} (hagree : ∀ field : Field, field.Agree first second) :
    first = second := by
  obtain ⟨workers, capacity, policy, threadName⟩ := first
  obtain ⟨_, _, _, _⟩ := second
  obtain rfl : workers = _ := hagree .workers
  obtain rfl : capacity = _ := hagree .capacity
  obtain rfl : policy = _ := hagree .policy
  obtain rfl : threadName = _ := hagree .threadName
  rfl

theorem Field.Reads.congr {first second : Config} (hreads : field.Reads text first)
    (hagree : field.Agree second first) : field.Reads text second := by
  cases field <;> simp only [Field.Agree] at hagree <;>
    simpa only [Field.Reads, hagree] using hreads

theorem Field.Reads.agree {first second : Config} (hfirst : field.Reads text first)
    (hsecond : field.Reads text second) : field.Agree first second := by
  cases field with
  | workers | capacity => exact Text.Spells.unique hfirst hsecond
  | policy => exact FailurePolicy.IsNamedBy.unique hfirst hsecond
  | threadName => exact Eq.trans hfirst (Eq.symm hsecond)

theorem Field.Reads.readable (hreads : field.Reads text config) : field.Readable text := by
  cases field with
  | workers | capacity | policy => exact ⟨_, hreads⟩
  | threadName => trivial

/-! ## Writing one field -/

theorem readVariable_eq_ok {variableName : String} {number : Nat} :
    readVariable variableName text = .ok number ↔ Text.Spells text number := by
  rw [← Text.readNumber_strip_eq_some, readVariable]
  cases Text.readNumber (Text.strip text) <;> simp

theorem readVariable_eq_error {variableName : String} {fault : ConfigFault} :
    readVariable variableName text = .error fault ↔
      (∀ number, ¬ Text.Spells text number) ∧ fault = .notANumber variableName text := by
  simp only [← Text.readNumber_strip_eq_some, readVariable]
  cases Text.readNumber (Text.strip text) with
  | none => simp [eq_comm]
  | some number => simp

theorem Field.write_cases_of_read {α : Type} (read : Except ConfigFault α) (put : α → Config)
    (hwrite : field.write text config = read.map put)
    (hreads : ∀ value, read = .ok value → field.Reads text (put value))
    (hfault : ∀ fault, read = .error fault → fault = field.fault text ∧ ¬ field.Readable text)
    (hothers : ∀ value other, other ≠ field → other.Agree (put value) config) :
    (∃ after, field.write text config = .ok after ∧ field.Reads text after ∧
        ∀ other, other ≠ field → other.Agree after config) ∨
      field.write text config = .error (field.fault text) ∧ ¬ field.Readable text := by
  cases hread : read with
  | ok value =>
      rw [hread] at hwrite
      exact Or.inl ⟨put value, hwrite, hreads value hread, hothers value⟩
  | error fault =>
      obtain ⟨rfl, hnot⟩ := hfault fault hread
      rw [hread] at hwrite
      exact Or.inr ⟨hwrite, hnot⟩

/-- A field is written by putting in what the text says, and no other field is touched; or the
text says nothing. -/
theorem Field.write_cases (field : Field) (text : String) (config : Config) :
    (∃ after, field.write text config = .ok after ∧ field.Reads text after ∧
        ∀ other, other ≠ field → other.Agree after config) ∨
      field.write text config = .error (field.fault text) ∧ ¬ field.Readable text := by
  cases field with
  | workers =>
      refine write_cases_of_read (readVariable Field.workers.variableName text)
        (fun workers => { config with workers }) rfl (fun _ => readVariable_eq_ok.mp)
        (fun _ hread => ?_) fun _ other hne => by cases other <;> first | rfl | exact absurd rfl hne
      obtain ⟨hnone, rfl⟩ := readVariable_eq_error.mp hread
      exact ⟨rfl, fun ⟨number, hnumber⟩ => hnone number hnumber⟩
  | capacity =>
      refine write_cases_of_read (readVariable Field.capacity.variableName text)
        (fun capacity => { config with capacity }) rfl (fun _ => readVariable_eq_ok.mp)
        (fun _ hread => ?_) fun _ other hne => by cases other <;> first | rfl | exact absurd rfl hne
      obtain ⟨hnone, rfl⟩ := readVariable_eq_error.mp hread
      exact ⟨rfl, fun ⟨number, hnumber⟩ => hnone number hnumber⟩
  | policy =>
      refine write_cases_of_read (FailurePolicy.read text) (fun policy => { config with policy })
        rfl (fun _ => FailurePolicy.read_eq_ok.mp)
        (fun _ hread => ?_) fun _ other hne => by cases other <;> first | rfl | exact absurd rfl hne
      obtain ⟨hnone, rfl⟩ := FailurePolicy.read_eq_error.mp hread
      exact ⟨rfl, fun ⟨named, hnamed⟩ => hnone named hnamed⟩
  | threadName =>
      refine Or.inl ⟨{ config with threadName := text }, rfl, rfl, ?_⟩
      intro other hne
      cases other <;> first | rfl | exact absurd rfl hne

/-! ## Writing all fields -/

/-- The overriding of a list of fields ends at the first whose variable cannot be read: that is
what is reported, the fields before it have been overridden, and the others are as they were. -/
def StopsAt (environment : Environment) (fields : List Field) (config after : Config)
    (fault : ConfigFault) : Prop :=
  ∃ before field later text, fields = before ++ field :: later ∧
    environment.text? field.variableName = some text ∧ ¬ field.Readable text ∧
    fault = field.fault text ∧
    (∀ earlier ∈ before, earlier.Overridden environment config after) ∧
    ∀ other ∈ field :: later, other.Agree after config

theorem Field.Overridden.congr {before middle after last : Config}
    (hoverridden : field.Overridden environment middle after) (hbefore : field.Agree middle before)
    (hafter : field.Agree last after) : field.Overridden environment before last := by
  unfold Field.Overridden at hoverridden ⊢
  split at hoverridden
  · exact hoverridden.congr hafter
  · exact (hafter.trans hoverridden).trans hbefore

/-- The first field is overridden, and then it is the turn of the others; or it cannot be. -/
theorem overrideFields_cons (environment : Environment) (config : Config) (first : Field)
    (rest : List Field) :
    (∃ next, overrideFields environment config (first :: rest) =
        overrideFields environment next rest ∧
      first.Overridden environment config next ∧
      ∀ other, other ≠ first → other.Agree next config) ∨
    ∃ text, environment.text? first.variableName = some text ∧ ¬ first.Readable text ∧
      overrideFields environment config (first :: rest) = (config, .error (first.fault text)) := by
  rw [overrideFields]
  cases htext : environment.text? first.variableName with
  | none =>
      refine Or.inl ⟨config, rfl, ?_, fun other _ => Field.Agree.refl other config⟩
      rw [Field.Overridden, htext]
      exact Field.Agree.refl first config
  | some text =>
      rcases first.write_cases text config with ⟨next, hwrite, hreads, hothers⟩ | ⟨hwrite, hnot⟩
      · refine Or.inl ⟨next, by simp only [hwrite], ?_, hothers⟩
        rw [Field.Overridden, htext]
        exact hreads
      · exact Or.inr ⟨text, rfl, hnot, by simp only [hwrite]⟩

/-- A field that is not among those to be overridden stays as it is, whatever comes of it. -/
theorem agree_overrideFields (hnotMem : field ∉ fields) (config : Config) :
    field.Agree (overrideFields environment config fields).1 config := by
  induction fields generalizing config with
  | nil => exact Field.Agree.refl field config
  | cons first rest ih =>
      obtain ⟨hne, hrest⟩ := not_or.mp (mt List.mem_cons.mpr hnotMem)
      rcases overrideFields_cons environment config first rest with
        ⟨next, heq, -, hothers⟩ | ⟨text, -, -, heq⟩
      · rw [heq]
        exact (ih hrest next).trans (hothers field hne)
      · rw [heq]
        exact Field.Agree.refl field config

/-- All fields are overridden, or it ends at one of them. -/
theorem overrideFields_cases (hnodup : fields.Nodup) (environment : Environment)
    (config : Config) :
    ((overrideFields environment config fields).2 = .ok () ∧
      ∀ field ∈ fields,
        field.Overridden environment config (overrideFields environment config fields).1) ∨
    ∃ fault, (overrideFields environment config fields).2 = .error fault ∧
      StopsAt environment fields config (overrideFields environment config fields).1 fault := by
  -- The first field moves the configuration on, so the others are overridden in any one.
  induction fields generalizing config with
  | nil => exact Or.inl ⟨rfl, fun field hfield => absurd hfield List.not_mem_nil⟩
  | cons first rest ih =>
      obtain ⟨hfirst, hrest⟩ := List.nodup_cons.mp hnodup
      rcases overrideFields_cons environment config first rest with
        ⟨next, heq, hdone, hothers⟩ | ⟨text, htext, hnot, heq⟩
      · rw [heq]
        have hne : ∀ {other : Field}, other ∈ rest → other ≠ first :=
          fun hmem hsame => hfirst (hsame ▸ hmem)
        have hstays : first.Overridden environment config
            (overrideFields environment next rest).1 :=
          hdone.congr (Field.Agree.refl first config) (agree_overrideFields hfirst next)
        have hlater : ∀ {other : Field} {last : Config}, other ∈ rest →
            other.Overridden environment next last → other.Overridden environment config last :=
          fun hmem hother => hother.congr (hothers _ (hne hmem)) (Field.Agree.refl _ _)
        rcases ih hrest next with ⟨hok, hall⟩ | ⟨fault, herror, hstops⟩
        · refine Or.inl ⟨hok, fun field hfield => ?_⟩
          rcases List.mem_cons.mp hfield with rfl | hfield
          · exact hstays
          · exact hlater hfield (hall field hfield)
        · obtain ⟨before, field, later, text, rfl, htext, hnot, rfl, hbefore, hkept⟩ := hstops
          refine Or.inr ⟨_, herror, first :: before, field, later, text, rfl, htext, hnot, rfl,
            fun earlier hearlier => ?_, fun other hother => ?_⟩
          · rcases List.mem_cons.mp hearlier with rfl | hearlier
            · exact hstays
            · exact hlater (List.mem_append_left _ hearlier) (hbefore earlier hearlier)
          · exact (hkept other hother).trans (hothers _ (hne (List.mem_append_right _ hother)))
      · rw [heq]
        exact Or.inr ⟨_, rfl, [], first, rest, text, rfl, htext, hnot, rfl,
          fun earlier hearlier => absurd hearlier List.not_mem_nil,
          fun other _ => Field.Agree.refl other config⟩

theorem override_cases (config : Config) (environment : Environment) :
    ((config.override environment).2 = .ok () ∧
      ∀ field : Field, field.Overridden environment config (config.override environment).1) ∨
    ∃ fault, (config.override environment).2 = .error fault ∧
      StopsAt environment Field.all config (config.override environment).1 fault := by
  rcases overrideFields_cases (by decide : Field.all.Nodup) environment config with
    ⟨hok, hall⟩ | hstops
  · exact Or.inl ⟨hok, fun field => hall field field.mem_all⟩
  · exact Or.inr hstops

/-- There is only one way of overriding a field. -/
theorem Field.Overridden.agree {first second : Config}
    (hfirst : field.Overridden environment config first)
    (hsecond : field.Overridden environment config second) : field.Agree first second := by
  unfold Field.Overridden at hfirst hsecond
  split at hfirst
  · rename_i htext
    simp only [htext] at hsecond
    exact hfirst.agree hsecond
  · rename_i hunset
    simp only [hunset] at hsecond
    exact hfirst.trans hsecond.symm

theorem Field.Overridden.readable (hoverridden : field.Overridden environment config after)
    (htext : environment.text? field.variableName = some text) : field.Readable text := by
  rw [Field.Overridden, htext] at hoverridden
  exact hoverridden.readable

/-- The overrides go through if and only if every field can be overridden, and there is only one
configuration that they lead to. -/
theorem override_eq_ok :
    config.override environment = (after, .ok ()) ↔
      ∀ field : Field, field.Overridden environment config after := by
  constructor
  · intro heq
    rcases override_cases config environment with ⟨-, hall⟩ | ⟨fault, herror, -⟩
    · rw [heq] at hall
      exact hall
    · rw [heq] at herror
      exact nomatch herror
  · intro hall
    rcases override_cases config environment with ⟨hok, hothers⟩ | ⟨fault, -, hstops⟩
    · exact Prod.ext (eq_of_agree fun field => (hothers field).agree (hall field)) hok
    · obtain ⟨_, field, _, text, -, htext, hnot, -⟩ := hstops
      exact absurd ((hall field).readable htext) hnot

end Config

/-- Whatever is set can be read. -/
def Environment.Readable (environment : Environment) : Prop :=
  ∀ (field : Config.Field) (text : String),
    environment.text? field.variableName = some text → field.Readable text

namespace Config

variable {config after : Config} {environment : Environment}

theorem override_ok_iff_readable :
    (config.override environment).2 = .ok () ↔ environment.Readable := by
  rcases override_cases config environment with ⟨hok, hall⟩ | ⟨fault, herror, hstops⟩
  · exact ⟨fun _ field text htext => (hall field).readable htext, fun _ => hok⟩
  · obtain ⟨_, field, _, text, -, htext, hnot, -⟩ := hstops
    refine ⟨fun hok => absurd (hok.symm.trans herror) (by simp), fun hreadable => ?_⟩
    exact absurd (hreadable field text htext) hnot

/-! ## The whole of it -/

/-- The overrides go through if and only if everything that is set can be read: a number is a plus
sign, or none, and digits between blanks, with a value that fits into a word; a policy is its name
between blanks in any mixture of capitals and small letters.  Then every field that is set is what
its variable says and every other field is what it was, and overriding once more changes nothing.
Otherwise the first variable that cannot be read is reported with its text; the fields before it
have been overridden, and all others are what they were. -/
theorem override_all_or_up_to_fault (config : Config) (environment : Environment) :
    ((config.override environment).2 = .ok () ↔ environment.Readable) ∧
    (∀ after, config.override environment = (after, .ok ()) →
      (∀ field : Field, field.Overridden environment config after) ∧
        after.override environment = (after, .ok ())) ∧
    ∀ after fault, config.override environment = (after, .error fault) →
      ∃ before field later text, Field.all = before ++ field :: later ∧
        environment.text? field.variableName = some text ∧ ¬ field.Readable text ∧
        (SchedulerError.config fault).message? =
          some ("config error: " ++ field.complaint text) ∧
        (∀ earlier ∈ before, earlier.Overridden environment config after) ∧
        ∀ other ∈ field :: later, other.Agree after config := by
  refine ⟨override_ok_iff_readable, fun after hafter => ?_, fun after fault hafter => ?_⟩
  · have hall := override_eq_ok.mp hafter
    -- What has been overridden once says what the variables say already.
    have hagain : ∀ field : Field, field.Overridden environment after after := by
      intro field
      have hfield := hall field
      unfold Field.Overridden at hfield ⊢
      split at hfield
      · exact hfield
      · exact Field.Agree.refl field after
    exact ⟨hall, override_eq_ok.mpr hagain⟩
  · rcases override_cases config environment with ⟨hok, -⟩ | ⟨found, herror, hstops⟩
    · rw [hafter] at hok
      exact nomatch hok
    · rw [hafter] at herror hstops
      obtain rfl := Except.error.inj herror
      obtain ⟨before, field, later, text, hsplit, htext, hnot, rfl, hbefore, hothers⟩ := hstops
      refine ⟨before, field, later, text, hsplit, htext, hnot, ?_, hbefore, hothers⟩
      rw [SchedulerError.message?, Field.message_fault]

/-- A number that can be read and a policy that cannot: the number is in force, and the policy is
reported as it looks without blanks and capitals. -/
theorem override_up_to_unknown_policy :
    let environment : Environment :=
      [("CADENCE_FAILURE_POLICY", .text " Retry"), ("CADENCE_WORKER_THREADS", .text "\t+007 "),
        ("CADENCE_THREAD_NAME_PREFIX", .text "jobs")]
    (¬ environment.Readable) ∧
    ∃ before field later text, Field.all = before ++ field :: later ∧
      environment.text? field.variableName = some text ∧ ¬ field.Readable text ∧
      some "config error: unknown failure policy 'retry' (expected 'continue' or 'cancel')" =
        some ("config error: " ++ field.complaint text) ∧
      (∀ earlier ∈ before, earlier.Overridden environment {} { workers := 7 }) ∧
      ∀ other ∈ field :: later, other.Agree { workers := 7 } {} := by
  intro environment
  have hoverride : ({} : Config).override environment =
      ({ workers := 7 }, .error (.unknownPolicy "retry")) := by decide
  obtain ⟨hreadable, -, hfault⟩ := override_all_or_up_to_fault {} environment
  refine ⟨fun hall => ?_, hfault _ _ hoverride⟩
  exact absurd (hreadable.mpr hall) (by rw [hoverride]; simp)

end Config

end TimedTasks
