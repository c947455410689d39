import DomainColoring.CommandLine.Arguments

/-!
# What the program is asked to do

Options that hold for every command may stand in front of the command or behind it; behind
it they win.
-/

namespace DomainColoring.CommandLine

/-- The commands and what they need. -/
inductive Command where
  /-- Draws the function of an expression. -/
  | func (expression : String) (left right bottom top : Float) (file : String)
  /-- Draws powers with exponents in equal steps. -/
  | pows (origin step : Float) (count : UInt64) (areaSize : Float) (directory : String)
  /-- Draws the exponential over areas of sizes in equal steps. -/
  | exps (origin step : Float) (count : UInt64) (directory : String)
  /-- Draws the elementary functions. -/
  | examples (areaSize : Float) (directory : String)
  /-- Prints the schema of settings files. -/
  | configSchema

/-- A command and the options that hold for every command. -/
structure Invocation where
  command : Command
  config : Option String
  width : Option UInt64
  height : Option UInt64
  quality : Option UInt64
  depthKey : Option DepthKey
  threads : Option UInt64
  json : Bool

/-- The circumference of the unit circle. -/
def tau : Float := 6.283185307179586

/-- The options that hold for every command. -/
def globalOptions : List OptionSpec := [
  ⟨"config", none, .value .path, false⟩,
  ⟨"width", some 'W', .value .count, false⟩,
  ⟨"height", some 'H', .value .count, false⟩,
  ⟨"quality", some 'q', .value .count, false⟩,
  ⟨"z-order", none, .value .depthKey, false⟩,
  ⟨"threads", none, .value .count, false⟩,
  ⟨"json", none, .flag, false⟩,
  ⟨"help", some 'h', .help, false⟩]

/-- What may stand in front of the command. -/
def programSpec : CommandSpec where
  options := ⟨"version", some 'V', .version, false⟩ :: globalOptions
  positional := none
  commands := ["func", "pows", "exps", "examples", "config-schema", "help"]

def funcSpec : CommandSpec where
  options := [
    ⟨"left", some 'l', .value .number, true⟩,
    ⟨"right", some 'r', .value .number, true⟩,
    ⟨"bottom", some 'b', .value .number, true⟩,
    ⟨"top", some 't', .value .number, true⟩,
    ⟨"file-name", some 'f', .value .path, false⟩] ++ globalOptions
  positional := some ⟨"expression", .text⟩
  commands := []

def powsSpec : CommandSpec where
  options := [
    ⟨"origin", some 'o', .value .number, true⟩,
    ⟨"step", some 's', .value .number, true⟩,
    ⟨"count", some 'c', .value .count, false⟩,
    ⟨"area-size", some 'a', .value .number, false⟩,
    ⟨"directory", some 'd', .value .path, false⟩] ++ globalOptions
  positional := none
  commands := []

def expsSpec : CommandSpec where
  options := [
    ⟨"origin", some 'o', .value .number, false⟩,
    ⟨"step", some 's', .value .number, true⟩,
    ⟨"count", some 'c', .value .count, false⟩,
    ⟨"directory", some 'd', .value .path, false⟩] ++ globalOptions
  positional := none
  commands := []

def examplesSpec : CommandSpec where
  options := [
    ⟨"area-size", some 'a', .value .number, false⟩,
    ⟨"directory", some 'd', .value .path, false⟩] ++ globalOptions
  positional := none
  commands := []

def configSchemaSpec : CommandSpec where
  options := globalOptions
  positional := none
  commands := []

namespace Scan

def count? (s : Scan) (name : String) : Option UInt64 :=
  match s.values.lookup name with
  | some (.count value) => some value
  | _ => none

def number? (s : Scan) (name : String) : Option Float :=
  match s.values.lookup name with
  | some (.number value) => some value
  | _ => none

def path? (s : Scan) (name : String) : Option String :=
  match s.values.lookup name with
  | some (.path text) => some text
  | _ => none

def text? (s : Scan) (name : String) : Option String :=
  match s.values.lookup name with
  | some (.text text) => some text
  | _ => none

def depthKey? (s : Scan) (name : String) : Option DepthKey :=
  match s.values.lookup name with
  | some (.depthKey key) => some key
  | _ => none

end Scan

/-- The command of a name and the scan of its arguments. -/
def readCommand (name : String) (arguments : List String) :
    Except UsageError (Command × Scan) :=
  match name with
  | "func" => do
    let s ← funcSpec.scan arguments
    return (.func ((s.text? "expression").getD "") ((s.number? "left").getD (-1.0))
      ((s.number? "right").getD 1.0) ((s.number? "bottom").getD (-1.0))
      ((s.number? "top").getD 1.0) ((s.path? "file-name").getD "plot.png"), s)
  | "pows" => do
    let s ← powsSpec.scan arguments
    return (.pows ((s.number? "origin").getD 2.0) ((s.number? "step").getD (-0.1))
      ((s.count? "count").getD 30) ((s.number? "area-size").getD 6.0)
      ((s.path? "directory").getD "pows"), s)
  | "exps" => do
    let s ← expsSpec.scan arguments
    return (.exps ((s.number? "origin").getD tau) ((s.number? "step").getD (-0.2))
      ((s.count? "count").getD 30) ((s.path? "directory").getD "exps"), s)
  | "examples" => do
    let s ← examplesSpec.scan arguments
    return (.examples ((s.number? "area-size").getD tau)
      ((s.path? "directory").getD "examples"), s)
  | "config-schema" => do
    let s ← configSchemaSpec.scan arguments
    return (.configSchema, s)
  | _ => .error .unknownCommand

/-- What asking for help about commands comes to: only commands of the program have help, and
they have no commands of their own. -/
def readHelp : List String → UsageError
  | [] => .helpAsked
  | [name] => if name ∈ programSpec.commands then .helpAsked else .unknownCommand
  | _ :: _ :: _ => .unknownCommand

/-- The invocation that the arguments of the program make up. The options in front of the
command are settled after the arguments behind it. -/
def Invocation.read (arguments : List String) : Except UsageError Invocation := do
  match ← programSpec.start.run programSpec false arguments with
  | (s, none) =>
    let s ← s.settle
    throw (if s.values.isEmpty && s.flags.isEmpty then .nothingGiven else .missingCommand)
  | (s, some (name, rest)) =>
    if name = "help" then throw (readHelp rest)
    let (command, inner) ← readCommand name rest
    let outer ← s.settle
    return {
      command
      config := inner.path? "config" <|> outer.path? "config"
      width := inner.count? "width" <|> outer.count? "width"
      height := inner.count? "height" <|> outer.count? "height"
      quality := inner.count? "quality" <|> outer.count? "quality"
      depthKey := inner.depthKey? "z-order" <|> outer.depthKey? "z-order"
      threads := inner.count? "threads" <|> outer.count? "threads"
      json := "json" ∈ inner.flags || "json" ∈ outer.flags }

end DomainColoring.CommandLine
