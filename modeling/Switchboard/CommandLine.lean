import Switchboard.Dict
import Switchboard.Text.Pieces

/-!
# Command lines

A command line is a list of options, each of which may also be given by a variable of the
environment. An option on the command line counts before one in the environment. Anything that
is not understood, and any option that is given twice where once is enough, is refused.
-/

namespace Switchboard.CommandLine

/-- What follows an option. -/
inductive Arity
  /-- Nothing; the option is there or not. -/
  | flag
  /-- A value; the option is given at most once. -/
  | single
  /-- Values with commas between them; the option may be given again and again. -/
  | many
  deriving DecidableEq, Repr

/-- An option that is understood. -/
structure OptionSpec where
  /-- The name behind the two dashes. -/
  name : String
  arity : Arity
  /-- The variable of the environment that stands for the option. -/
  envName? : Option String
  deriving DecidableEq, Repr

/-- Why a command line is refused. -/
inductive Fault
  | unexpected (argument : String)
  | missingValue (name : String)
  | unwantedValue (name : String)
  | repeated (name : String)
  | badValue (name value : String)
  deriving DecidableEq, Repr

/-- The sentence about a refusal. -/
def Fault.message : Fault → String
  | .unexpected argument => "error: unexpected argument '" ++ argument ++ "' found\n"
  | .missingValue name =>
    "error: a value is required for '--" ++ name ++ "' but none was supplied\n"
  | .unwantedValue name => "error: unexpected value for '--" ++ name ++ "' found\n"
  | .repeated name => "error: the argument '--" ++ name ++ "' cannot be used multiple times\n"
  | .badValue name value => "error: invalid value '" ++ value ++ "' for '--" ++ name ++ "'\n"

/-- The values given for the options, by name. A flag has the value `true` or `false`. -/
abbrev Values := Dict String (List String)

/-- The values between commas. -/
def splitValues (arity : Arity) (value : String) : List String :=
  match arity with
  | .many => (Text.pieces ',' value.toList).map String.ofList
  | _ => [value]

/-- Adds a value given for an option. -/
def give (values : Values) (spec : OptionSpec) (value : String) : Except Fault Values :=
  match spec.arity, values.get? spec.name with
  | .many, old => .ok (values.insert spec.name (old.getD [] ++ splitValues .many value))
  | _, some _ => .error (.repeated spec.name)
  | arity, none => .ok (values.insert spec.name (splitValues arity value))

/-- Whether an argument begins like an option and cannot be a value. -/
def looksLikeOption (argument : String) : Bool :=
  argument.toList.head? == some '-' && argument != "-"

/-- The name and the attached value of an argument with two dashes in front. -/
def longOption? (argument : String) : Option (String × Option String) :=
  match argument.toList with
  | '-' :: '-' :: rest =>
    match Text.splitFirst '=' rest with
    | some (name, value) => some (String.ofList name, some (String.ofList value))
    | none => some (String.ofList rest, none)
  | _ => none

/-- Reads the arguments. Two dashes alone end the options, and nothing may follow them. -/
def readArguments (specs : List OptionSpec) (values : Values) :
    List String → Except Fault Values
  | [] => .ok values
  | argument :: rest =>
    if argument = "--" then
      match rest with
      | [] => .ok values
      | extra :: _ => .error (.unexpected extra)
    else
      match longOption? argument with
      | none => .error (.unexpected argument)
      | some (name, attached) =>
        match specs.find? (·.name = name), attached, rest with
        | none, _, _ => .error (.unexpected argument)
        | some spec, some value, rest =>
          if spec.arity = .flag then .error (.unwantedValue name)
          else
            match give values spec value with
            | .ok values => readArguments specs values rest
            | .error fault => .error fault
        | some spec, none, [] =>
          if spec.arity = .flag then give values spec "true" else .error (.missingValue name)
        | some spec, none, value :: rest' =>
          if spec.arity = .flag then
            match give values spec "true" with
            | .ok values => readArguments specs values (value :: rest')
            | .error fault => .error fault
          else if looksLikeOption value then .error (.missingValue name)
          else
            match give values spec value with
            | .ok values => readArguments specs values rest'
            | .error fault => .error fault

/-- Adds what the environment gives for the options that are not on the command line. -/
def addEnvironment (environment : Dict String String) (values : Values) (spec : OptionSpec) :
    Values :=
  if values.contains spec.name then values
  else
    match spec.envName?.bind environment.get? with
    | some value => values.insert spec.name (splitValues spec.arity value)
    | none => values

/-- The values given by the command line and the environment. -/
def read (specs : List OptionSpec) (arguments : List String) (environment : Dict String String) :
    Except Fault Values :=
  (readArguments specs ∅ arguments).map fun values =>
    specs.foldl (addEnvironment environment) values

/-! ## Typed values -/

/-- The value of an option, read as what it means. -/
def value? {α : Type} (values : Values) (name : String) (read : String → Option α) :
    Except Fault (Option α) :=
  match values.get? name with
  | none => .ok none
  | some texts =>
    match texts.getLast? with
    | none => .ok none
    | some text =>
      match read text with
      | some a => .ok (some a)
      | none => .error (.badValue name text)

/-- The value of an option, or what it is when it is not given. -/
def valueD {α : Type} (values : Values) (name : String) (read : String → Option α)
    (default : α) : Except Fault α :=
  (value? values name read).map (·.getD default)

/-- All values of an option. -/
def allValues {α : Type} (values : Values) (name : String) (read : String → Option α) :
    Except Fault (List α) :=
  ((values.get? name).getD []).mapM fun text =>
    match read text with
    | some a => .ok a
    | none => .error (.badValue name text)

/-- Whether a flag is set. In the environment it is set by the word `true`. -/
def isSet (values : Values) (name : String) : Except Fault Bool :=
  valueD values name
    (fun text => if text = "true" then some true else if text = "false" then some false else none)
    false

end Switchboard.CommandLine
