import DomainColoring.Decimal.Reader
import DomainColoring.DepthKey

/-!
# Arguments

A command takes options, which have a name behind two hyphens and maybe a letter behind one,
and at most one positional argument. An option takes a value, attached to it or as the next
argument, or is a flag. A value is read, and an option checked for being given twice, not
before the next option or positional argument is seen; of two faults, this decides which
one is reported.
-/

namespace DomainColoring.CommandLine

/-- Why arguments are refused, or what is shown instead of running. -/
inductive UsageError where
  | helpAsked
  | versionAsked
  /-- No argument at all where a command is needed. -/
  | nothingGiven
  | missingCommand
  | unknownCommand
  | unknownArgument
  | missingArgument
  | repeatedOption
  /-- A value attached to a flag. -/
  | valueForFlag
  | missingValue
  | unknownChoice
  | malformedValue
deriving DecidableEq, Repr

/-- The kinds of values. -/
inductive ValueKind where
  | count
  | number
  | path
  | text
  | depthKey
deriving DecidableEq

/-- A value that was read. -/
inductive Value where
  | count (value : UInt64)
  | number (value : Float)
  | path (text : String)
  | text (text : String)
  | depthKey (key : DepthKey)

/-- A count of 64 bits, maybe with a plus sign. -/
def readCount? (text : List Char) : Option UInt64 :=
  let ds := match text with
    | '+' :: rest => rest
    | other => other
  if ds ≠ [] ∧ ds.all Char.isDigit ∧ Decimal.ofDigits ds < Nat.pow 2 64 then
    some (UInt64.ofNat (Decimal.ofDigits ds))
  else none

/-- The value that a text denotes. -/
def ValueKind.read (kind : ValueKind) (written : String) : Except UsageError Value :=
  match kind with
  | .count => match readCount? written.toList with
    | some value => .ok (.count value)
    | none => .error .malformedValue
  | .number => match Decimal.read? written.toList with
    | some value => .ok (.number value)
    | none => .error .malformedValue
  | .path => if written.isEmpty then .error .missingValue else .ok (.path written)
  | .text => .ok (.text written)
  | .depthKey => match DepthKey.ofName? written with
    | some key => .ok (.depthKey key)
    | none => .error .unknownChoice

/-- What an option does. -/
inductive Action where
  | value (kind : ValueKind)
  | flag
  | help
  | version

/-- An option. -/
structure OptionSpec where
  name : String
  letter : Option Char
  action : Action
  /-- Whether its value may begin with a hyphen. -/
  hyphens : Bool

/-- The positional argument of a command. It may begin with a hyphen, unless it is known as an
option. -/
structure PositionalSpec where
  name : String
  kind : ValueKind

/-- What a command takes. -/
structure CommandSpec where
  options : List OptionSpec
  positional : Option PositionalSpec
  /-- The names of the commands that may follow. -/
  commands : List String

/-- A value that waits to be read. -/
inductive Pending where
  | nothing
  /-- An option whose value is the next argument. -/
  | awaiting (name : String) (kind : ValueKind) (hyphens : Bool)
  /-- A text to be read as the value of an option or positional argument. -/
  | given (name : String) (kind : ValueKind) (text : String)

/-- What was read of the arguments of a command. -/
structure Scan where
  values : List (String × Value)
  flags : List String
  pending : Pending
  /-- The positional argument, as long as it was not seen. -/
  positional : Option PositionalSpec

namespace Scan

/-- Reads the value of an option, which must not have one yet. -/
def accept (s : Scan) (name : String) (kind : ValueKind) (text : String) :
    Except UsageError Scan := do
  if s.values.any fun (given, _) => given = name then throw .repeatedOption
  let value ← kind.read text
  return { s with values := s.values ++ [(name, value)], pending := .nothing }

/-- Reads the value that waits. -/
def settle (s : Scan) : Except UsageError Scan :=
  match s.pending with
  | .nothing => .ok s
  | .awaiting _ _ _ => .error .missingValue
  | .given name kind text => s.accept name kind text

/-- An option without an attached value. -/
def option (s : Scan) (o : OptionSpec) : Except UsageError Scan := do
  let s ← s.settle
  match o.action with
  | .value kind => return { s with pending := .awaiting o.name kind o.hyphens }
  | .flag =>
    if o.name ∈ s.flags then throw .repeatedOption
    return { s with flags := o.name :: s.flags }
  | .help => throw .helpAsked
  | .version => throw .versionAsked

/-- An option with an attached value. -/
def optionWith (s : Scan) (o : OptionSpec) (kind : ValueKind) (text : String) :
    Except UsageError Scan := do
  (← s.settle).accept o.name kind text

/-- Whether the option whose value comes next takes one with a hyphen in front. -/
def takesHyphens (s : Scan) : Bool :=
  match s.pending with
  | .awaiting _ _ hyphens => hyphens
  | _ => false

/-- Whether an option waits for the next argument. -/
def isAwaiting (s : Scan) : Bool :=
  match s.pending with
  | .awaiting _ _ _ => true
  | _ => false

/-- An argument that is not an option: the value of the option in front of it, or the positional
argument. -/
def plain (s : Scan) (spec : CommandSpec) (trailing : Bool) (argument : String) :
    Except UsageError Scan :=
  match trailing, s.pending with
  | false, .awaiting name kind _ => .ok { s with pending := .given name kind argument }
  | _, _ =>
    match s.positional with
    | some p => do
      let s ← s.settle
      return { s with pending := .given p.name p.kind argument, positional := none }
    | none =>
      if spec.commands.isEmpty || (trailing && argument ∈ spec.commands) then
        .error .unknownArgument
      else .error .unknownCommand

/-- The part of an argument up to the first equals sign, and what is behind it. -/
def splitValue (argument : List Char) : List Char × Option String :=
  match argument.dropWhile (· ≠ '=') with
  | [] => (argument, none)
  | _ :: value => (argument.takeWhile (· ≠ '='), some (String.ofList value))

/-- An argument with two hyphens in front, which are left out in `name`. -/
def long (s : Scan) (spec : CommandSpec) (argument : String) (name : List Char) :
    Except UsageError Scan :=
  if s.takesHyphens then s.plain spec false argument
  else
    let (name, value) := splitValue name
    match spec.options.find? fun o => o.name.toList = name with
    | some o =>
      match o.action, value with
      | .value kind, some text => s.optionWith o kind text
      | _, none => s.option o
      | _, some _ => .error .valueForFlag
    | none => if s.positional.isSome then s.plain spec false argument else .error .unknownArgument

/-- Letters of options in one argument; what stands behind the first that takes a value is that
value, with an equals sign in front or without. -/
def letters (s : Scan) (spec : CommandSpec) : List Char → Except UsageError Scan
  | [] => .ok s
  | letter :: rest =>
    match spec.options.find? fun o => o.letter = some letter with
    | none => .error .unknownArgument
    | some o =>
      match o.action, rest with
      | .value kind, '=' :: value => s.optionWith o kind (String.ofList value)
      | .value kind, first :: value => s.optionWith o kind (String.ofList (first :: value))
      | .value _, [] => s.option o
      | _, rest => do (← s.option o).letters spec rest

/-- An argument with one hyphen in front, which is left out in `text`. -/
def short (s : Scan) (spec : CommandSpec) (argument : String) (text : List Char) :
    Except UsageError Scan :=
  let known (letter : Char) : Bool := spec.options.any fun o => o.letter = some letter
  if s.takesHyphens || (s.positional.isSome && !text.all known) then s.plain spec false argument
  else s.letters spec text

/-- What comes of the arguments of a command: the last scan, and the command that follows with
its arguments. -/
def run (s : Scan) (spec : CommandSpec) (trailing : Bool) :
    List String → Except UsageError (Scan × Option (String × List String))
  | [] => .ok (s, none)
  | argument :: rest =>
    if trailing then do (← s.plain spec true argument).run spec true rest
    else if !s.isAwaiting && argument ∈ spec.commands then .ok (s, some (argument, rest))
    else
      match argument.toList with
      | ['-', '-'] =>
        if s.takesHyphens then do (← s.plain spec false argument).run spec false rest
        else s.run spec true rest
      | '-' :: '-' :: name => do (← s.long spec argument name).run spec false rest
      | '-' :: letter :: text => do
        (← s.short spec argument (letter :: text)).run spec false rest
      | _ => do (← s.plain spec false argument).run spec false rest

end Scan

namespace CommandSpec

/-- The scan before any argument. -/
def start (spec : CommandSpec) : Scan :=
  ⟨[], [], .nothing, spec.positional⟩

/-- Reads the arguments of a command that no other follows. -/
def scan (spec : CommandSpec) (arguments : List String) : Except UsageError Scan := do
  let (s, _) ← spec.start.run spec false arguments
  let s ← s.settle
  if s.positional.isSome then throw .missingArgument
  return s

end CommandSpec
end DomainColoring.CommandLine
