import TimedTasks.CommandLine.Resolution
import TimedTasks.Proofs.Config.Environment
import TimedTasks.Scheduler.State

/-!
# Layers above layers

A configuration comes from four layers: what the command line gives, what the environment sets,
what a file says, and the defaults.  If one comes about, every field of it is from the uppermost
layer that has anything to say about the field (`Options.Layered`), and a scheduler can run with
it.  When it does not come about, one of the layers cannot be read, or the layers together are not
valid, or a file and the environment are not valid without the command line
(`Options.resolve_by_layers`).

The last of these is what a file changes that says nothing at all: without a file nobody looks at
what the environment asks for before the command line has had its say.

None of this depends on how a file is read.  `parse` stands for any reader, which says what fields
a text sets; `Options.resolve` has that of `Layer.ofText?`.
-/

namespace TimedTasks.CommandLine

open Config (Field)

variable {options : Options} {parse : String → Option Layer}
variable {files : String → Except FileFault String}
variable {environment : Environment} {file flags : Layer} {config below : Config}

/-! ## The layers -/

/-- What the configuration file says, if there is one; it cannot be read, or is no configuration
file, otherwise. -/
def Options.fileLayer (options : Options) (parse : String → Option Layer)
    (files : String → Except FileFault String) : Except SchedulerError Layer :=
  match options.config? with
  | none => .ok {}
  | some path =>
    match files path with
    | .error fault => .error (.configFile fault)
    | .ok text =>
      match parse text with
      | none => .error .configParse
      | some file => .ok file

/-- Whether a field is given on the command line.  The name of the threads cannot be. -/
def Options.Gives (options : Options) (field : Field) : Prop :=
  match field with
  | .workers => options.workers?.isSome
  | .capacity => options.capacity?.isSome
  | .policy => options.policy?.isSome
  | .threadName => False

/-- A configuration has in a field what is given on the command line. -/
def Options.IsGiven (options : Options) (field : Field) (config : Config) : Prop :=
  match field with
  | .workers => options.workers? = some config.workers
  | .capacity => options.capacity? = some config.capacity
  | .policy => ∃ text, options.policy? = some text ∧ config.policy.IsNamedBy text
  | .threadName => False

/-- Every field of a configuration is what the command line gives; if that gives nothing, what the
environment sets; if that sets nothing, what the file says; and if that says nothing, the
default. -/
def Options.Layered (options : Options) (environment : Environment) (file : Layer)
    (config : Config) : Prop :=
  ∀ field : Field, (options.Gives field → options.IsGiven field config) ∧
    (¬ options.Gives field → field.Overridden environment (file.over {}) config)

/-- The policy on the command line, if there is one, is the name of a policy. -/
def Options.NamesPolicy (options : Options) : Prop :=
  ∀ text, options.policy? = some text → ∃ policy : FailurePolicy, policy.IsNamedBy text

/-- What a file and the environment say is valid, if there is a file, whatever is on the command
line. -/
def Options.ValidBelow (options : Options) (environment : Environment) (file : Layer) : Prop :=
  options.config?.isSome → ∀ below : Config,
    (∀ field : Field, field.Overridden environment (file.over {}) below) → below.validate = .ok ()

/-! ## Reading the layers -/

theorem overridden_eq_ok {above : Config} :
    below.overridden environment = .ok above ↔
      ∀ field : Field, field.Overridden environment below above := by
  rw [← Config.override_eq_ok, Config.overridden]
  rcases below.override environment with ⟨after, _ | ⟨⟩⟩ <;> simp

theorem within_eq_ok {β : Type} {context : Context} {result : Except SchedulerError β} {value : β} :
    within context result = .ok value ↔ result = .ok value := by
  cases result <;> simp [within, Except.mapError]

theorem mapError_eq_ok {β ε : Type} {wrap : ε → SchedulerError} {result : Except ε β} {value : β} :
    result.mapError wrap = .ok value ↔ result = .ok value := by
  cases result <;> simp [Except.mapError]

theorem complete_eq_ok {above : Config} :
    below.complete environment = .ok above ↔
      (∀ field : Field, field.Overridden environment below above) ∧ above.validate = .ok () := by
  rw [← overridden_eq_ok, Config.complete]
  cases below.overridden environment with
  | error fault => simp
  | ok found =>
      simp only [Except.ok.injEq]
      cases hvalid : found.validate with
      | error fault =>
          simp only [reduceCtorEq, false_iff, not_and]
          rintro rfl hok
          exact absurd (hvalid.symm.trans hok) (by simp)
      | ok =>
          simp only [Except.ok.injEq]
          exact ⟨fun heq => ⟨heq, heq ▸ hvalid⟩, And.left⟩

theorem base_eq_ok :
    options.base parse files environment = .ok below ↔
      ∃ file, options.fileLayer parse files = .ok file ∧
        (∀ field : Field, field.Overridden environment (file.over {}) below) ∧
        (options.config?.isSome → below.validate = .ok ()) := by
  cases hconfig : options.config? with
  | none =>
      simp only [Options.base, Options.fileLayer, hconfig, within_eq_ok, mapError_eq_ok,
        overridden_eq_ok]
      simp
  | some path =>
      simp only [Options.base, Options.fileLayer, hconfig, within_eq_ok, Option.isSome_some,
        forall_const]
      cases files path with
      | error fault => simp [Config.ofFileWith]
      | ok text =>
          simp only [Config.ofFileWith, Config.ofTextWith]
          cases parse text with
          | none => simp
          | some file => simp [complete_eq_ok]

theorem layer_eq_ok :
    options.layer = .ok flags ↔
      flags.workers? = options.workers? ∧ flags.capacity? = options.capacity? ∧
        flags.threadName? = none ∧ (options.policy? = none → flags.policy? = none) ∧
        ∀ text, options.policy? = some text →
          ∃ policy, flags.policy? = some policy ∧ policy.IsNamedBy text := by
  obtain ⟨workers?, capacity?, policy?, threadName?⟩ := flags
  cases hpolicy : options.policy? with
  | none =>
      simp only [Options.layer, hpolicy]
      constructor
      · intro heq
        obtain ⟨rfl, rfl, rfl, rfl⟩ := Layer.mk.inj (Except.ok.inj heq)
        simp
      · rintro ⟨rfl, rfl, rfl, hnone, -⟩
        obtain rfl : policy? = none := hnone trivial
        rfl
  | some text =>
      simp only [Options.layer, hpolicy]
      cases hread : FailurePolicy.read text with
      | error fault =>
          obtain ⟨hnone, -⟩ := FailurePolicy.read_eq_error.mp hread
          constructor
          · intro heq
            exact nomatch heq
          · rintro ⟨-, -, -, -, hnamed⟩
            obtain ⟨policy, -, hpolicy⟩ := hnamed text rfl
            exact absurd hpolicy (hnone policy)
      | ok policy =>
          have hnamed := FailurePolicy.read_eq_ok.mp hread
          constructor
          · intro heq
            obtain ⟨rfl, rfl, rfl, rfl⟩ := Layer.mk.inj (Except.ok.inj heq)
            refine ⟨rfl, rfl, rfl, by simp, fun other hother => ⟨policy, rfl, ?_⟩⟩
            rwa [← Option.some.inj hother]
          · rintro ⟨rfl, rfl, rfl, -, hsome⟩
            obtain ⟨other, rfl, hother⟩ := hsome text rfl
            obtain rfl := hother.unique hnamed
            rfl

/-- The flags lie above what is below them, field by field. -/
theorem isGiven_of_layer (below : Config) (hlayer : options.layer = .ok flags) (field : Field) :
    (options.Gives field → options.IsGiven field (flags.over below)) ∧
      (¬ options.Gives field → field.Agree (flags.over below) below) := by
  obtain ⟨hworkers, hcapacity, hthreadName, hnone, hsome⟩ := layer_eq_ok.mp hlayer
  cases field with
  | workers =>
      simp only [Options.Gives, Options.IsGiven, Field.Agree, Layer.over, hworkers]
      cases options.workers? <;> simp
  | capacity =>
      simp only [Options.Gives, Options.IsGiven, Field.Agree, Layer.over, hcapacity]
      cases options.capacity? <;> simp
  | policy =>
      simp only [Options.Gives, Options.IsGiven, Field.Agree, Layer.over]
      cases hpolicy : options.policy? with
      | none => simp [hnone hpolicy]
      | some text =>
          obtain ⟨policy, hflag, hnamed⟩ := hsome text hpolicy
          simpa [hflag] using hnamed
  | threadName => simp [Options.Gives, Field.Agree, Layer.over, hthreadName]

theorem exists_layer_iff : (∃ flags, options.layer = .ok flags) ↔ options.NamesPolicy := by
  constructor
  · rintro ⟨flags, hlayer⟩ text htext
    obtain ⟨-, -, -, -, hsome⟩ := layer_eq_ok.mp hlayer
    obtain ⟨policy, -, hnamed⟩ := hsome text htext
    exact ⟨policy, hnamed⟩
  · intro hnames
    cases hpolicy : options.policy? with
    | none =>
        refine ⟨⟨options.workers?, options.capacity?, none, none⟩, ?_⟩
        exact layer_eq_ok.mpr ⟨rfl, rfl, rfl, fun _ => rfl, by simp [hpolicy]⟩
    | some text =>
        obtain ⟨policy, hnamed⟩ := hnames text hpolicy
        refine ⟨⟨options.workers?, options.capacity?, some policy, none⟩, ?_⟩
        refine layer_eq_ok.mpr ⟨rfl, rfl, rfl, by simp [hpolicy], fun other hother => ?_⟩
        obtain rfl := Option.some.inj (hpolicy.symm.trans hother)
        exact ⟨policy, rfl, hnamed⟩

/-! ## All layers together -/

theorem resolve_eq_ok :
    options.resolveWith parse files environment = .ok config ↔
      ∃ below flags, options.base parse files environment = .ok below ∧ options.layer = .ok flags ∧
        config = flags.over below ∧ config.validate = .ok () := by
  unfold Options.resolveWith
  cases hbase : options.base parse files environment with
  | error error => simp [bind, Except.bind]
  | ok below =>
      cases hlayer : options.layer with
      | error error => simp [bind, Except.bind]
      | ok flags =>
          simp only [bind, Except.bind]
          cases hvalid : (flags.over below).validate with
          | error fault =>
              constructor
              · intro heq
                exact nomatch heq
              · rintro ⟨_, _, hbelow, hflags, rfl, hok⟩
                obtain rfl := Except.ok.inj hbelow
                obtain rfl := Except.ok.inj hflags
                exact absurd (hvalid.symm.trans hok) (by simp)
          | ok =>
              constructor
              · intro heq
                obtain rfl := Except.ok.inj heq
                exact ⟨below, flags, rfl, rfl, rfl, hvalid⟩
              · rintro ⟨_, _, hbelow, hflags, rfl, -⟩
                obtain rfl := Except.ok.inj hbelow
                obtain rfl := Except.ok.inj hflags
                rfl

/-- There is only one configuration that has every field from the uppermost layer. -/
theorem Options.Layered.unique {other : Config} (hfirst : options.Layered environment file config)
    (hsecond : options.Layered environment file other) : config = other := by
  refine Config.eq_of_agree fun field => ?_
  by_cases hgives : options.Gives field
  · have hone := (hfirst field).1 hgives
    have htwo := (hsecond field).1 hgives
    cases field with
    | workers | capacity => exact Option.some.inj (hone.symm.trans htwo)
    | policy =>
        obtain ⟨text, htext, hnamed⟩ := hone
        obtain ⟨_, hsame, hother⟩ := htwo
        obtain rfl := Option.some.inj (htext.symm.trans hsame)
        exact hnamed.unique hother
    | threadName => exact hone.elim
  · exact ((hfirst field).2 hgives).agree ((hsecond field).2 hgives)

theorem layered_of_layer (hlayer : options.layer = .ok flags)
    (hbelow : ∀ field : Field, field.Overridden environment (file.over {}) below) :
    options.Layered environment file (flags.over below) := by
  intro field
  obtain ⟨hgiven, hkept⟩ := isGiven_of_layer below hlayer field
  refine ⟨hgiven, fun hgives => ?_⟩
  exact (hbelow field).congr (Field.Agree.refl field _) (hkept hgives)

theorem exists_overridden (hreadable : environment.Readable) (below : Config) :
    ∃ above : Config, ∀ field : Field, field.Overridden environment below above := by
  refine ⟨(below.override environment).1, Config.override_eq_ok.mp ?_⟩
  exact Prod.ext rfl (Config.override_ok_iff_readable.mpr hreadable)

theorem resolve_eq_ok_iff :
    options.resolveWith parse files environment = .ok config ↔
      ∃ file, options.fileLayer parse files = .ok file ∧ environment.Readable ∧
        options.NamesPolicy ∧
        options.ValidBelow environment file ∧ options.Layered environment file config ∧
        config.validate = .ok () := by
  rw [resolve_eq_ok]
  constructor
  · rintro ⟨below, flags, hbase, hlayer, rfl, hvalid⟩
    obtain ⟨file, hfile, hbelow, hearly⟩ := base_eq_ok.mp hbase
    have hreadable := Config.override_ok_iff_readable.mp
      (congrArg Prod.snd (Config.override_eq_ok.mpr hbelow))
    refine ⟨file, hfile, hreadable, exists_layer_iff.mp ⟨flags, hlayer⟩,
      fun hsome other hother => ?_,
      layered_of_layer hlayer hbelow, hvalid⟩
    rw [Config.eq_of_agree fun field => (hother field).agree (hbelow field)]
    exact hearly hsome
  · rintro ⟨file, hfile, hreadable, hnames, hearly, hlayered, hvalid⟩
    obtain ⟨flags, hlayer⟩ := exists_layer_iff.mpr hnames
    obtain ⟨below, hbelow⟩ := exists_overridden hreadable (file.over {})
    exact ⟨below, flags, base_eq_ok.mpr ⟨file, hfile, hbelow, fun hsome => hearly hsome _ hbelow⟩,
      hlayer, hlayered.unique (layered_of_layer hlayer hbelow), hvalid⟩

/-- The environment asks for more workers than a scheduler accepts. -/
def AsksTooMuch (environment : Environment) : Prop :=
  ∃ text count, environment.text? Field.workers.variableName = some text ∧
    Text.Spells text count ∧ workerLimit < count

theorem validate_eq_ok :
    config.validate = .ok () ↔
      Text.strip config.threadName ≠ "" ∧ config.workers ≤ workerLimit := by
  unfold Config.validate
  split
  · simp_all
  · split <;> simp_all

/-- Above a file that says nothing everything is as without a file, except that what lies below the
command line has to be valid as well. -/
theorem resolve_silent_eq_ok {path text : String} (hfile : files path = .ok text)
    (hsilent : parse text = some {}) :
    { options with config? := some path }.resolveWith parse files environment = .ok config ↔
      { options with config? := none }.resolveWith parse files environment = .ok config ∧
        { options with config? := some path }.ValidBelow environment {} := by
  have hwith : { options with config? := some path }.fileLayer parse files = .ok {} := by
    simp only [Options.fileLayer, hfile, hsilent]
  have hwithout : { options with config? := none }.fileLayer parse files = .ok {} := rfl
  rw [resolve_eq_ok_iff, resolve_eq_ok_iff]
  constructor
  · rintro ⟨file, hread, hreadable, hnames, hbelow, hlayered, hvalid⟩
    obtain rfl := Except.ok.inj (hwith.symm.trans hread)
    exact ⟨⟨{}, hwithout, hreadable, hnames, fun hnone => absurd hnone (by simp), hlayered, hvalid⟩,
      hbelow⟩
  · rintro ⟨⟨file, hread, hreadable, hnames, -, hlayered, hvalid⟩, hbelow⟩
    obtain rfl := Except.ok.inj (hwithout.symm.trans hread)
    exact ⟨{}, hwith, hreadable, hnames, hbelow, hlayered, hvalid⟩

/-- What the environment sets above the defaults is valid if the outcome is, and if it does not ask
for too many workers.  The command line can make up for nothing else. -/
theorem validBelow_iff {path : String} (hlayered : options.Layered environment {} config)
    (hvalid : config.validate = .ok ()) (hreadable : environment.Readable) :
    { options with config? := some path }.ValidBelow environment {} ↔
      ¬ AsksTooMuch environment := by
  have hworkers : ∀ below : Config, (∀ field : Field, field.Overridden environment {} below) →
      (AsksTooMuch environment ↔ workerLimit < below.workers) := by
    intro below hbelow
    have hfield := hbelow .workers
    unfold Field.Overridden at hfield
    constructor
    · rintro ⟨text, count, htext, hspells, hlt⟩
      rw [htext] at hfield
      rwa [Text.Spells.unique hfield hspells]
    · intro hlt
      split at hfield
      · rename_i text htext
        exact ⟨text, below.workers, htext, hfield, hlt⟩
      · have hdefault : below.workers = 0 := hfield
        exact absurd hlt (by rw [hdefault]; decide)
  constructor
  · intro hbelow hasks
    obtain ⟨below, hoverridden⟩ := exists_overridden hreadable {}
    obtain ⟨-, hle⟩ := validate_eq_ok.mp (hbelow rfl below hoverridden)
    exact absurd ((hworkers below hoverridden).mp hasks) (by omega)
  · intro hasks _ below hoverridden
    have hthreadName : config.threadName = below.threadName :=
      Field.Overridden.agree ((hlayered .threadName).2 id) (hoverridden .threadName)
    obtain ⟨hnamed, -⟩ := validate_eq_ok.mp hvalid
    refine validate_eq_ok.mpr ⟨hthreadName ▸ hnamed, ?_⟩
    exact Nat.le_of_not_lt (mt (hworkers below hoverridden).mpr hasks)

/-- A file that says nothing leaves everything as it is without a file, unless the environment asks
for too many workers and the command line does not let that happen: with the file this is a fault
all the same. -/
theorem resolve_with_silent_file (options : Options) (parse : String → Option Layer)
    (files : String → Except FileFault String) (environment : Environment) (path : String)
    {text : String} (hfile : files path = .ok text)
    (hsilent : parse text = some {}) :
    (∀ config,
      { options with config? := some path }.resolveWith parse files environment = .ok config →
      { options with config? := none }.resolveWith parse files environment = .ok config) ∧
    (({ options with config? := some path }.resolveWith parse files environment).toOption =
        ({ options with config? := none }.resolveWith parse files environment).toOption ↔
      (AsksTooMuch environment →
        ∃ error, { options with config? := none }.resolveWith parse files environment =
          .error error)) := by
  refine ⟨fun config hwith => ((resolve_silent_eq_ok hfile hsilent).mp hwith).1, ?_⟩
  cases hwithout : { options with config? := none }.resolveWith parse files environment with
  | error error =>
      refine ⟨fun _ _ => ⟨error, rfl⟩, fun _ => ?_⟩
      cases hwith : { options with config? := some path }.resolveWith parse files environment with
      | error other => rfl
      | ok config =>
          obtain ⟨hsame, -⟩ := (resolve_silent_eq_ok hfile hsilent).mp hwith
          exact absurd (hwithout.symm.trans hsame) (by simp)
  | ok config =>
      obtain ⟨file, hfileLayer, hreadable, -, -, hlayered, hvalid⟩ := resolve_eq_ok_iff.mp hwithout
      obtain rfl := Except.ok.inj (hfileLayer : Except.ok {} = Except.ok file)
      -- What lies below the command line has to be valid by itself only if there is a file.
      have hbelow : { options with config? := some path }.ValidBelow environment {} ↔
          ¬ AsksTooMuch environment :=
        validBelow_iff hlayered hvalid hreadable
      constructor
      · intro hsame hasks
        have hwith : { options with config? := some path }.resolveWith parse files environment =
            .ok config := by
          cases hfound :
            { options with config? := some path }.resolveWith parse files environment with
          | error error => exact absurd (hfound ▸ hsame) (by simp [Except.toOption])
          | ok found =>
              rw [hfound] at hsame
              exact congrArg Except.ok (Option.some.inj hsame)
        exact absurd hasks (hbelow.mp ((resolve_silent_eq_ok hfile hsilent).mp hwith).2)
      · intro hnever
        have hasks : ¬ AsksTooMuch environment := by
          intro hasks
          obtain ⟨error, herror⟩ := hnever hasks
          exact absurd herror (by simp)
        rw [(resolve_silent_eq_ok hfile hsilent).mpr ⟨hwithout, hbelow.mpr hasks⟩]

/-- An empty file, an environment that asks for two thousand workers, and four workers on the
command line: with the file this is a fault, and without it the four workers are what comes of
it. -/
theorem resolve_with_silent_file_of_many_workers :
    (Layer.ofText? "" = some {}) ∧
      AsksTooMuch [("CADENCE_WORKER_THREADS", .text "2000")] ∧
      ¬ ({ config? := some "cadence.toml", workers? := some 4 : Options }.resolve
          (fun _ => .ok "") [("CADENCE_WORKER_THREADS", .text "2000")]).toOption =
        ({ workers? := some 4 : Options }.resolve
          (fun _ => .ok "") [("CADENCE_WORKER_THREADS", .text "2000")]).toOption := by
  have hsilent : Layer.ofText? "" = some {} := by decide
  have hasks : AsksTooMuch [("CADENCE_WORKER_THREADS", .text "2000")] :=
    ⟨"2000", 2000, by decide, Text.readNumber_strip_eq_some.mp (by decide), by decide⟩
  refine ⟨hsilent, hasks, fun hsame => ?_⟩
  obtain ⟨-, hiff⟩ := resolve_with_silent_file { workers? := some 4 } Layer.ofText?
    (fun _ => .ok "")
    [("CADENCE_WORKER_THREADS", .text "2000")] "cadence.toml" rfl hsilent
  have hwithout : ({ workers? := some 4 : Options }.resolve (fun _ => .ok "")
      [("CADENCE_WORKER_THREADS", .text "2000")]) = .ok { workers := 4 } := by decide
  obtain ⟨error, herror⟩ := hiff.mp hsame hasks
  exact absurd (hwithout.symm.trans herror) (by simp)

/-- A file that says nothing can be a fault. -/
theorem not_resolve_as_without_silent_file :
    ¬ ∀ (options : Options) (files : String → Except FileFault String) (environment : Environment)
        (path text : String), files path = .ok text → Layer.ofText? text = some {} →
      ({ options with config? := some path }.resolve files environment).toOption =
        ({ options with config? := none }.resolve files environment).toOption := by
  intro hsame
  have hequal := hsame { workers? := some 4 } (fun _ => .ok "")
    [("CADENCE_WORKER_THREADS", .text "2000")] "cadence.toml" "" rfl (by decide)
  exact absurd hequal (by decide)

end TimedTasks.CommandLine
