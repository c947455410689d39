import DomainColoring.CommandLine.Invocation
import DomainColoring.CommandLine.Series
import DomainColoring.Expression.Parser
import DomainColoring.Plot
import DomainColoring.Settings.Schema
import DomainColoring.Settings.Storage

/-!
# Running the program

A command comes down to a list of plots, each of which is worked out, drawn and saved before
the next. The first that fails ends the run. If the settings ask for a number of threads, these are
started before anything else is done; how many there are makes no difference to a plot.
-/

namespace DomainColoring.CommandLine

variable {m : Type → Type} [Monad m]

/-- A plot to be drawn: what is reported first, the function, the area unless it is invalid,
the file, and the depth key. -/
structure Task where
  announcement : String
  function : NamedMap
  area : Except PlotError Area
  file : Path
  depthKey : DepthKey

/-- A plot that was saved. -/
structure Summary where
  file : Path
  function : String
  area : Area
  width : UInt64
  height : UInt64
  quality : UInt64
  /-- The time that drawing and saving took, in milliseconds. -/
  elapsed : UInt64

/-- The settings that options replace one by one. -/
def override (i : Invocation) (s : Settings) : Settings :=
  { s with
    width := i.width.getD s.width
    height := i.height.getD s.height
    quality := i.quality.getD s.quality
    depthKey := i.depthKey.getD s.depthKey
    threads := i.threads <|> s.threads }

/-- The settings of a run: those of the file, valid by themselves, with options in place of
them, and valid again. -/
def resolveSettings (h : Host m) (i : Invocation) : m (Except PlotError Settings) := do
  match ← Settings.loadOrStandard h (i.config.map Path.mk) with
  | .error e => pure (.error e)
  | .ok settings =>
    let settings := override i settings
    pure (settings.validate.map fun _ => settings)

/-- Starts the threads that settings ask for, if they ask for any. -/
def startThreads (h : Host m) (s : Settings) : m (Except PlotError Unit) := do
  match s.threads with
  | none => pure (.ok ())
  | some count =>
    match ← h.startThreads count with
    | .ok () => pure (.ok ())
    | .error message => pure (.error (.threadPool message))

namespace Task

/-- The area and the canvas of a plot. -/
def draw (t : Task) (s : Settings) : Except PlotError (Area × Raster) := do
  let area ← t.area
  let plot ← Plot.make s.width s.height s.background
  let (outcome, plot) := plot.draw t.function area s.quality { s.style with depthKey := t.depthKey }
  outcome
  match plot.canvas.pictureFault? with
  | some fault => throw fault
  | none => return (area, plot.canvas)

/-- The steps that save a picture. -/
def saveSteps (file : Path) (picture : Raster) : List StorageStep :=
  [.createFile file, .write file (.picture picture)]

/-- The summary of a plot that was saved. -/
def summary (t : Task) (s : Settings) (area : Area) (elapsed : UInt64) : Summary :=
  ⟨t.file, t.function.name, area, s.width, s.height, s.quality, elapsed⟩

/-- Draws a plot and saves it. -/
def run (h : Host m) (s : Settings) (t : Task) : m (Except PlotError Summary) := do
  h.report t.announcement
  let started ← h.clock
  match t.draw s with
  | .error e => pure (.error e)
  | .ok (area, picture) =>
    match ← h.performAll (saveSteps t.file picture) with
    | .error e => pure (.error (.picture e.message))
    | .ok () =>
      h.report ("saved " ++ t.file.text)
      let finished ← h.clock
      pure (.ok (t.summary s area (finished - started)))

/-- Runs tasks in order up to the first that fails. -/
def runAll (h : Host m) (s : Settings) : List Task → m (Except PlotError (List Summary))
  | [] => pure (.ok [])
  | task :: rest => do
    match ← task.run h s with
    | .error e => pure (.error e)
    | .ok summary =>
      match ← runAll h s rest with
      | .error e => pure (.error e)
      | .ok summaries => pure (.ok (summary :: summaries))

end Task

/-- What a command needs before its first plot: a directory, and the tasks. -/
structure Plan where
  directory : Option Path
  tasks : List Task

/-- How a task of a series is announced. -/
def announceNumbered (what : String) (index : Nat) (number : String) : String :=
  "Drawing " ++ what ++ " [" ++ toString index ++ "]: " ++ number ++ "..."

/-- The plan of a command, unless something is wrong with it from the start. -/
def Command.plan (s : Settings) : Command → Except PlotError Plan
  | func expression left right bottom top file => do
    let area ← Area.make ⟨left, bottom⟩ ⟨right, top⟩
    let function ← (NamedMap.read expression.toList).mapError fun e => .expression e.message e.span
    return ⟨none, [⟨"Drawing " ++ function.name ++ "...", function, .ok area, ⟨file⟩, s.depthKey⟩]⟩
  | pows origin step count areaSize directory => do
    let area ← Area.centered areaSize
    let task (numbered : Nat × Float) : Task :=
      ⟨announceNumbered "power" numbered.1 (String.ofList (shortNumber numbered.2)),
        powerFunction numbered.2, .ok area,
        Path.join ⟨directory⟩ ("pow" ++ toString numbered.1 ++ ".png"), .real⟩
    return ⟨some ⟨directory⟩, (series origin step count).map task⟩
  | exps origin step count directory => do
    let task (numbered : Nat × Float) : Task :=
      ⟨announceNumbered "size" numbered.1 (String.ofList (Decimal.plain numbered.2)),
        exponential, Area.centered numbered.2,
        Path.join ⟨directory⟩ ("exp" ++ toString numbered.1 ++ ".png"), s.depthKey⟩
    return ⟨some ⟨directory⟩, (series origin step count).map task⟩
  | examples areaSize directory => do
    let area ← Area.centered areaSize
    let task (named : String × NamedMap) : Task :=
      ⟨"Drawing " ++ named.1 ++ "...", named.2, .ok area,
        Path.join ⟨directory⟩ (named.1 ++ ".png"), s.depthKey⟩
    return ⟨some ⟨directory⟩, elementaryFunctions.map task⟩
  | configSchema => .ok ⟨none, []⟩

/-- Carries out a command with settings. -/
def runCommand (h : Host m) (s : Settings) (c : Command) :
    m (Except PlotError (List Summary)) := do
  match c.plan s with
  | .error e => pure (.error e)
  | .ok plan =>
    match ← h.performAll (plan.directory.toList.map .makeDirectories) with
    | .error e => pure (.error (.storage e.message))
    | .ok () => Task.runAll h s plan.tasks

/-- What a run comes to. -/
inductive Outcome where
  | schema (text : String)
  | drawn (summaries : List Summary)
  | failed (error : PlotError)

/-- What is reported of a saved plot. -/
def Summary.report (s : Summary) : String :=
  s.function ++ " -> " ++ s.file.text ++ " (" ++ toString s.elapsed.toNat ++ " ms)"

/-- A saved plot as programs see it. -/
def Summary.toJson (s : Summary) : Json :=
  .record [
    ("file", .text s.file.text),
    ("function", .text s.function),
    ("area", s.area.toJson),
    ("width", .natural s.width),
    ("height", .natural s.height),
    ("quality", .natural s.quality),
    ("elapsed_ms", .natural s.elapsed)]

/-- Carries out an invocation. When plots are not printed as JSON, they are reported. -/
def run (h : Host m) (i : Invocation) : m Outcome := do
  match i.command with
  | .configSchema => pure (.schema Settings.Schema.text)
  | command =>
    match ← resolveSettings h i with
    | .error e => pure (.failed e)
    | .ok settings =>
      match ← startThreads h settings with
      | .error e => pure (.failed e)
      | .ok () =>
        match ← runCommand h settings command with
        | .error e => pure (.failed e)
        | .ok summaries =>
          if !i.json then summaries.forM fun s => h.report s.report
          pure (.drawn summaries)

/-- An error as programs see it. -/
def errorJson (e : PlotError) : Json :=
  .record [("error", .record [("code", .text e.code), ("detail", e.detail)])]

/-- An error as people see it; one in an expression is shown under the expression. -/
def errorText (e : PlotError) (c : Command) : String :=
  match e, c with
  | .expression message span, .func expression _ _ _ _ _ =>
    "error: " ++ Text.underlined (SyntaxError.report message) expression.toList span
  | e, _ => "error: " ++ e.message

end DomainColoring.CommandLine
