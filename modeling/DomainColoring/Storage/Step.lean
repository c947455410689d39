import DomainColoring.Storage.FileTree

/-!
# Steps on files

What is written to files is written in steps, so that it can be said what is there when
one of them fails or the program ends between two of them.
-/

namespace DomainColoring

/-- One change of the files. -/
inductive StorageStep where
  | makeDirectories (path : Path)
  | createFile (path : Path)
  | write (path : Path) (content : FileContent)
  /-- Waits until what was written to a file is kept. -/
  | sync (path : Path)
  | rename (source target : Path)

namespace StorageStep

/-- The tree after a step, and whether the step failed. Only making directories can fail and
yet change the tree. -/
def apply (t : FileTree) : StorageStep → FileTree × Except StorageError Unit
  | makeDirectories path => t.makeDirectories path
  | createFile path => t.settle (t.createFile path)
  | write path content => t.settle (t.fill path content)
  | sync _ => (t, .ok ())
  | rename source target => t.settle (t.rename source target)

/-- Makes and fills a file by way of a sibling with `.tmp` behind its name, which then takes the
place of the file all at once. -/
def replaceFile (path : Path) (content : FileContent) : List StorageStep :=
  let temporary := path.withFileName (path.fileName?.getD "" ++ ".tmp")
  [createFile temporary, write temporary content, sync temporary, rename temporary path]

/-- Makes the directory that a file is to lie in, unless it is the working directory. -/
def makeParent (path : Path) : List StorageStep :=
  if path.parent.text.isEmpty then [] else [makeDirectories path.parent]

end StorageStep

/-- Where a program reads files, changes them and reports what it does, and where it gets the
threads to draw on. -/
structure Host (m : Type → Type) where
  readText : Path → m (Except StorageError (List Char))
  perform : StorageStep → m (Except StorageError Unit)
  /-- Starts a number of threads, or says why they cannot be started. -/
  startThreads : UInt64 → m (Except String Unit)
  report : String → m Unit
  /-- The milliseconds since some moment. -/
  clock : m UInt64

namespace Host

variable {m : Type → Type} [Monad m]

/-- Performs steps in order up to the first that fails. -/
def performAll (h : Host m) : List StorageStep → m (Except StorageError Unit)
  | [] => pure (.ok ())
  | step :: rest => do
    match ← h.perform step with
    | .ok () => h.performAll rest
    | .error e => pure (.error e)

end Host

/-- A file tree and the reports so far. -/
structure World where
  files : FileTree
  reports : List String

/-- The host of a file tree, in which there are enough threads and no time passes. -/
def World.host : Host (StateM World) where
  readText path := do
    return (← get).files.readText path
  perform step := do
    let world ← get
    let (files, outcome) := step.apply world.files
    set { world with files := files }
    return outcome
  startThreads _ := pure (.ok ())
  report line := modify fun world => { world with reports := world.reports ++ [line] }
  clock := pure 0

end DomainColoring
