import DomainColoring.CommandLine.Run
import DomainColoring.CommandLine.Usage
import DomainColoring.Png

/-!
# The program

The outer layer: it turns steps on files into calls of the operating system, prints what a run
comes to, and exits with 0 for success, 1 for a failed run and 2 for refused arguments.
-/

namespace DomainColoring

/-- What the operating system says about a failed operation. -/
def storageErrorOf : IO.Error → StorageError
  | .noFileOrDirectory _ _ _ => .notFound
  | .noSuchThing _ _ _ => .notFound
  | .alreadyExists _ _ _ => .alreadyExists
  | .resourceBusy _ _ => .busy
  | .inappropriateType _ 20 _ => .notDirectory
  | .inappropriateType _ 21 _ => .isDirectory
  | e => .other (toString e)

/-- The outcome of an operation, with its failure in place of an exception. -/
def attempt {Result : Type} (operation : IO Result) : IO (Except StorageError Result) := do
  try
    return .ok (← operation)
  catch e =>
    return .error (storageErrorOf e)

/-- The bytes of a file with this content. -/
def FileContent.bytes : FileContent → ByteArray
  | text chars => (String.ofList chars).toUTF8
  | picture raster => Png.encode raster

/-- Performs a step on the files of the system. -/
def performStep : StorageStep → IO Unit
  | .makeDirectories path => IO.FS.createDirAll path.text
  | .createFile path => IO.FS.writeBinFile path.text .empty
  | .write path content => IO.FS.writeBinFile path.text content.bytes
  | .sync _ => pure ()
  | .rename source target => IO.FS.rename source.text target.text

/-- The host of the files of the system. Plots are drawn on the thread of the program itself. -/
def systemHost : Host IO where
  readText path := do
    match ← attempt (IO.FS.readBinFile path.text) with
    | .error e => return .error e
    | .ok bytes =>
      match String.fromUTF8? bytes with
      | some text => return .ok text.toList
      | none => return .error .notText
  perform step := attempt (performStep step)
  startThreads _ := return .ok ()
  report line := IO.eprintln line
  clock := do return UInt64.ofNat (← IO.monoMsNow)

/-- Prints what a run comes to. -/
def printOutcome (i : CommandLine.Invocation) : CommandLine.Outcome → IO UInt32
  | .schema text => do
    IO.println text
    return 0
  | .drawn summaries => do
    if i.json then
      IO.println (Json.list (summaries.map CommandLine.Summary.toJson)).indented
    return 0
  | .failed e => do
    if i.json then IO.println (CommandLine.errorJson e).indented
    else IO.eprintln (CommandLine.errorText e i.command)
    return 1

/-- Runs the program and returns what it exits with. -/
def program (arguments : List String) : IO UInt32 := do
  match CommandLine.Invocation.read arguments with
  | .ok i => printOutcome i (← CommandLine.run systemHost i)
  | .error e =>
    if e.isRequest then
      IO.println e.message
      return 0
    else
      IO.eprintln e.message
      return 2

end DomainColoring

def main (arguments : List String) : IO UInt32 :=
  DomainColoring.program arguments
