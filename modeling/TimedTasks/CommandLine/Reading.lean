import TimedTasks.CommandLine.Options

/-!
# Reading a command line

The words of a command line are looked at one after the other.  A setting may have its
value in the same word, behind an equals sign, or in the next word; such a setting is
pending until something else is read, and only then is its value looked at.  An option
that does not exist is refused at once, whatever is pending.

A setting that is not given is looked up in the environment at the end.
-/

namespace TimedTasks.CommandLine

/-! ### Words -/

/-- What a word is, by its hyphens. -/
inductive Word where
  /-- Two hyphens, after which there are no options any more. -/
  | escape
  /-- A name behind two hyphens, and what stands behind its equals sign. -/
  | long (name : String) (value? : Option String)
  /-- A letter behind one hyphen. -/
  | short (letter : Char)
  | plain (text : String)
  deriving DecidableEq, Repr

def Word.ofText (text : String) : Word :=
  match text.toList with
  | ['-', '-'] => escape
  | '-' :: '-' :: rest =>
    let name := String.ofList (rest.takeWhile (· != '='))
    match rest.dropWhile (· != '=') with
    | [] => long name none
    | _ :: value => long name (some (String.ofList value))
  | '-' :: letter :: _ => short letter
  | _ => plain text

/-- What an option asks for. -/
inductive Wish where
  | setting (setting : Setting)
  | noDrain
  | help
  deriving DecidableEq, Repr

def Wish.ofName? (name : String) : Option Wish :=
  if name = "no-drain" then some noDrain
  else if name = "help" then some help
  else (Setting.all.find? fun setting => setting.name == name).map setting

/-! ### Going through the words -/

/-- How far the reading of a command line has come. -/
structure Progress where
  options : Options := {}
  given : List Setting := []
  /-- The setting whose value has not been looked at yet, and its value. -/
  pending? : Option (Setting × Option String) := none
  escaped : Bool := false

namespace Progress

def accept (progress : Progress) (setting : Setting) (value? : Option String) :
    Except UsageFault Progress :=
  match value? with
  | none => .error .missingValue
  | some text =>
    if setting ∈ progress.given then .error .repeated
    else
      match setting.write text progress.options with
      | none => .error .invalidValue
      | some options => .ok { progress with options, given := setting :: progress.given }

/-- The pending setting, if there is one, is looked at. -/
def settle (progress : Progress) : Except UsageFault Progress :=
  match progress.pending? with
  | none => .ok progress
  | some (setting, value?) => { progress with pending? := none }.accept setting value?

def wish (progress : Progress) (wish : Wish) (value? : Option String) :
    Except UsageFault Progress :=
  match wish, value? with
  | .setting setting, some value => progress.settle.bind fun progress =>
    progress.accept setting (some value)
  | .setting setting, none => progress.settle.map fun progress =>
    { progress with pending? := some (setting, none) }
  | _, some _ => .error .unexpectedValue
  | .help, none => progress.settle.bind fun _ => .error .helpWanted
  | .noDrain, none => progress.settle.bind fun progress =>
    if progress.options.noDrain then .error .repeated
    else .ok { progress with options := { progress.options with noDrain := true } }

/-- A word that is no option is the value of the pending setting. -/
def plain (progress : Progress) (text : String) : Except UsageFault Progress :=
  match progress.pending? with
  | some (setting, none) => .ok { progress with pending? := some (setting, some text) }
  | _ => .error .unknownArgument

/-- The next word is read. -/
def read (progress : Progress) (text : String) : Except UsageFault Progress :=
  if progress.escaped then .error .unknownArgument
  else
    match Word.ofText text with
    | .escape => .ok { progress with escaped := true }
    | .long name value? =>
      match Wish.ofName? name with
      | some wish => progress.wish wish value?
      | none => .error .unknownArgument
    | .short letter => if letter = 'h' then progress.wish .help none else .error .unknownArgument
    | .plain text => progress.plain text

/-- A setting that was not given is looked up in the environment. -/
def lookUp (environment : Environment) (progress : Progress) (setting : Setting) :
    Except UsageFault Progress :=
  if setting ∈ progress.given then .ok progress
  else
    match setting.variableName?.bind fun variableName => environment.lookup variableName with
    | none => .ok progress
    | some .notText => .error .notText
    | some (.text text) => progress.accept setting (some text)

end Progress

def Options.read (words : List String) (environment : Environment) : Except UsageFault Options := do
  let progress ← words.foldlM Progress.read ({} : Progress)
  let progress ← progress.settle
  let progress ← Setting.all.foldlM (Progress.lookUp environment) progress
  .ok progress.options

end TimedTasks.CommandLine
