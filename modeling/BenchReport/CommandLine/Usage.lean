/-!
# Command lines

A program takes flags, options with one value each, and positional values. A
flag has a long name and a letter, letters can be written together, and a value
can follow its option after an equals sign or as the next argument. Two dashes
end the flags and options.

A value that is an argument of its own, and an option that waits for one, are
settled only when the next flag, option or positional value is taken, or at the
end. So an argument that nothing is known of is told before a bad value that
stands right before it.
-/

namespace BenchReport

/-- Why a command line is not accepted. -/
inductive UsageError where
  /-- An argument is not known. -/
  | unknownArgument
  /-- A value is missing, or empty where it must not be. -/
  | invalidValue
  /-- A value is not one of those that are known. -/
  | valueValidation
  /-- A flag or an option is given twice. -/
  | argumentConflict
  /-- A flag has a value. -/
  | tooManyValues
  /-- No work is wanted but an explanation. -/
  | helpRequested
deriving DecidableEq, Repr

/-- The wording of the error. -/
def UsageError.message : UsageError → String
  | unknownArgument => "unexpected argument"
  | invalidValue => "a value is required"
  | valueValidation => "invalid value"
  | argumentConflict => "an argument cannot be used multiple times"
  | tooManyValues => "unexpected value for a flag"
  | helpRequested => "no help is available"

/-- A flag of a program with settings of type `σ`. -/
structure Flag (σ : Type) where
  /-- The long name, without dashes. -/
  name : String
  /-- The letter. -/
  letter : Char
  /-- What the flag does to the settings. -/
  set : σ → σ

/-- An option of a program, or a positional value. -/
structure Parameter (σ : Type) where
  /-- The long name, without dashes. -/
  name : String
  /-- What a value does to the settings. -/
  set : String → σ → Except UsageError σ

/-- What a program takes. -/
structure Usage (σ : Type) where
  /-- The flags. -/
  flags : List (Flag σ)
  /-- The options. -/
  options : List (Parameter σ)
  /-- The positional values, in their order. -/
  positionals : List (Parameter σ)

namespace Usage

variable {σ : Type}

/-- What is known after some arguments. -/
structure State (σ : Type) where
  /-- The settings. -/
  settings : σ
  /-- The names of the flags and options that were given. -/
  given : List String := []
  /-- A parameter that is still to be settled, and its value if it has one. -/
  pending : Option (Parameter σ × Option String) := none
  /-- The positional values that were not given. -/
  positionals : List (Parameter σ)
  /-- Whether flags and options have ended. -/
  optionsEnded : Bool := false

namespace State

/-- Takes a value for a parameter. -/
def give (s : State σ) (parameter : Parameter σ) (value : String) :
    Except UsageError (State σ) :=
  if s.given.contains parameter.name then .error .argumentConflict
  else
    (parameter.set value s.settings).map fun settings =>
      { s with settings, given := parameter.name :: s.given }

/-- Settles the parameter that is pending. -/
def settle (s : State σ) : Except UsageError (State σ) :=
  match s.pending with
  | none => .ok s
  | some (_, none) => .error .invalidValue
  | some (parameter, some value) =>
    { s with pending := none }.give parameter value

/-- Takes a flag. -/
def raise (s : State σ) (flag : Flag σ) : Except UsageError (State σ) := do
  let s ← s.settle
  if s.given.contains flag.name then throw .argumentConflict
  return { s with
    settings := flag.set s.settings
    given := flag.name :: s.given }

/-- Takes a positional value. -/
def position (s : State σ) (value : String) : Except UsageError (State σ) :=
  match s.positionals with
  | [] => .error .unknownArgument
  | parameter :: positionals => do
    let s ← s.settle
    return { s with pending := some (parameter, some value), positionals }

/-- Takes a value of an option that waits for it, or else a positional value. -/
def plain (s : State σ) (value : String) : Except UsageError (State σ) :=
  match s.pending with
  | some (parameter, none) =>
    .ok { s with pending := some (parameter, some value) }
  | _ => s.position value

end State

/-- The name before an equals sign and the value after it, if there is one. -/
def splitValue (text : List Char) : String × Option String :=
  let name := text.takeWhile (· ≠ '=')
  match text.dropWhile (· ≠ '=') with
  | [] => (.ofList name, none)
  | _ :: value => (.ofList name, some (.ofList value))

/-- Takes an argument that begins with two dashes, `text` being what follows
them. -/
def takeLong (u : Usage σ) (s : State σ) (text : List Char) :
    Except UsageError (State σ) :=
  let (name, value) := splitValue text
  match u.options.find? (·.name = name), value with
  | some option, some value => do
    let s ← s.settle
    s.give option value
  | some option, none => do
    let s ← s.settle
    return { s with pending := some (option, none) }
  | none, _ =>
    match u.flags.find? (·.name = name), value with
    | some _, some _ => .error .tooManyValues
    | some flag, none => s.raise flag
    | none, value =>
      if name = "help" then
        if value.isSome then .error .tooManyValues
        else s.settle.bind fun _ => .error .helpRequested
      else .error .unknownArgument

/-- Takes letters that follow one dash. -/
def takeLetters (u : Usage σ) (s : State σ) :
    List Char → Except UsageError (State σ)
  | [] => .ok s
  | c :: rest =>
    match u.flags.find? (·.letter = c) with
    | some flag => do takeLetters u (← s.raise flag) rest
    | none =>
      if c = 'h' then s.settle.bind fun _ => .error .helpRequested
      else .error .unknownArgument

/-- Takes one argument. -/
def take (u : Usage σ) (s : State σ) (argument : String) :
    Except UsageError (State σ) :=
  if s.optionsEnded then s.position argument
  else
    match argument.toList with
    | ['-', '-'] => .ok { s with optionsEnded := true }
    | '-' :: '-' :: text => u.takeLong s text
    | '-' :: letter :: letters => u.takeLetters s (letter :: letters)
    | _ => s.plain argument

/-- The settings that a command line gives, starting from those given. -/
def read (u : Usage σ) (settings : σ) (arguments : List String) :
    Except UsageError σ := do
  let s ← arguments.foldlM u.take { settings, positionals := u.positionals }
  let s ← s.settle
  return s.settings

end Usage

/-- A parameter whose value must not be empty. -/
def Parameter.nonempty {σ : Type} (name : String) (set : String → σ → σ) :
    Parameter σ where
  name
  set value settings :=
    if value.isEmpty then .error .invalidValue else .ok (set value settings)

end BenchReport
