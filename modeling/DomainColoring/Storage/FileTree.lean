import DomainColoring.Raster
import DomainColoring.Storage.Path

/-!
# File trees

A file tree holds files and directories by the names that lead to them from the root. Paths that do
not begin at the root begin in a working directory. The operations fail as those of an operating
system do where a file or a directory is missing or stands in the way, or where a single name is too
long.

Every file has one name in a tree, and no name stands for another path: there are neither hard nor
symbolic links. There are no permissions either, no limit on a path as a whole and none on the room
for files. A system that refuses a step for such a reason is a host that fails; what is said of
hosts covers it. A system with links is not covered.
-/

namespace DomainColoring

/-- Why an operation on files fails. -/
inductive StorageError where
  | notFound
  | busy
  | alreadyExists
  | notDirectory
  | isDirectory
  | nameTooLong
  /-- A name has a character in it that ends the names of an operating system. -/
  | badName
  /-- The file holds no text. -/
  | notText
  | other (message : String)
deriving DecidableEq

namespace StorageError

def message : StorageError → String
  | notFound => "No such file or directory (os error 2)"
  | busy => "Device or resource busy (os error 16)"
  | alreadyExists => "File exists (os error 17)"
  | notDirectory => "Not a directory (os error 20)"
  | isDirectory => "Is a directory (os error 21)"
  | nameTooLong => "File name too long (os error 36)"
  | badName => "file name contained an unexpected NUL byte"
  | notText => "stream did not contain valid UTF-8"
  | other message => message

end StorageError

/-- What a file holds. -/
inductive FileContent where
  | text (chars : List Char)
  | picture (raster : Raster)
deriving DecidableEq

/-- What a place in a tree holds. -/
inductive FileNode where
  | directory
  | file (content : FileContent)
deriving DecidableEq

/-- Files and directories by the names that lead to them from the root, and the directory in which
relative paths begin. -/
structure FileTree where
  entries : List (List String × FileNode)
  workingDirectory : List String

namespace FileTree

/-- The tree of an empty root. -/
def empty : FileTree := ⟨[], []⟩

/-- What a place holds; the root is always there. -/
def node? (t : FileTree) (place : List String) : Option FileNode :=
  if place = [] then some .directory
  else (t.entries.find? fun entry => entry.1 = place).map (·.2)

/-- The tree without what a place holds. -/
def erase (t : FileTree) (place : List String) : FileTree :=
  { t with entries := t.entries.filter fun entry => entry.1 ≠ place }

/-- The tree with something in a place. -/
def set (t : FileTree) (place : List String) (node : FileNode) : FileTree :=
  { t with entries := (t.erase place).entries ++ [(place, node)] }

/-- The greatest number of bytes of a name. -/
def nameLimit : Nat := 255

/-- The place of a name in a directory. -/
def entry (place : List String) (name : String) : Except StorageError (List String) :=
  if name.utf8ByteSize ≤ nameLimit then .ok (place ++ [name]) else .error .nameTooLong

/-- The directory to which names lead from a directory. Nothing lies above the root. -/
def directoryFrom (t : FileTree) (place : List String) :
    List String → Except StorageError (List String)
  | [] => .ok place
  | name :: rest =>
    if name = ".." then t.directoryFrom place.dropLast rest
    else do
      let next ← entry place name
      match t.node? next with
      | some .directory => t.directoryFrom next rest
      | some (.file _) => throw .notDirectory
      | none => throw .notFound

/-- The directory in which paths begin: the root or the working directory, which may be gone. -/
def start (t : FileTree) (absolute : Bool) : Except StorageError (List String) :=
  if absolute then .ok []
  else if t.node? t.workingDirectory = some .directory then .ok t.workingDirectory
  else .error .notFound

/-- The place to which a path leads. The entry that it names need not be there, all before have
to be directories. -/
def locate (t : FileTree) (path : Path) : Except StorageError (List String) :=
  if '\x00' ∈ path.text.toList then .error .badName
  else if path.text.isEmpty then .error .notFound
  else do
    let start ← t.start path.isAbsolute
    match path.entryName? with
    | some name => entry (← t.directoryFrom start path.names.dropLast) name
    | none => t.directoryFrom start path.names

/-- Whether a path leads to a directory. -/
def isDirectory (t : FileTree) (path : Path) : Bool :=
  match t.locate path with
  | .ok place => t.node? place = some .directory
  | .error _ => false

/-- Makes a directory in one that is there. -/
def makeDirectory (t : FileTree) (path : Path) : Except StorageError FileTree := do
  let place ← t.locate path
  match t.node? place with
  | some _ => throw .alreadyExists
  | none => return t.set place .directory

/-- The tree after an operation that changes nothing when it fails, and whether it failed. -/
def settle (t : FileTree) : Except StorageError FileTree → FileTree × Except StorageError Unit
  | .ok changed => (changed, .ok ())
  | .error e => (t, .error e)

/-- Makes a directory unless it is there. -/
def ensureDirectory (t : FileTree) (path : Path) : FileTree × Except StorageError Unit :=
  if t.isDirectory path then (t, .ok ()) else t.settle (t.makeDirectory path)

/-- Makes a directory unless it is there. When the one that it is to lie in is missing, work
goes on after `prepared`, which makes that one. -/
def ensureDirectoryAfter (t : FileTree) (path : Path)
    (prepared : FileTree × Except StorageError Unit) : FileTree × Except StorageError Unit :=
  match t.makeDirectory path, prepared with
  | .error .notFound, (prepared, .ok ()) => prepared.ensureDirectory path
  | .error .notFound, failed => failed
  | _, _ => t.ensureDirectory path

/-- Makes the directories on the way through a list of names, given backwards. -/
def ensureDirectoriesAlong (t : FileTree) (absolute : Bool) :
    List String → FileTree × Except StorageError Unit
  | [] => (t, .ok ())
  | name :: before =>
    t.ensureDirectoryAfter (Path.ofNames absolute (name :: before).reverse)
      (t.ensureDirectoriesAlong absolute before)

/-- Makes a directory and those that are missing on the way to it. Those that were made stay
when a later one fails. -/
def makeDirectories (t : FileTree) (path : Path) : FileTree × Except StorageError Unit :=
  if path.text.isEmpty then (t, .ok ())
  else t.ensureDirectoryAfter path
    (t.ensureDirectoriesAlong path.isAbsolute path.names.dropLast.reverse)

/-- Makes an empty file, in place of one that is there. -/
def createFile (t : FileTree) (path : Path) : Except StorageError FileTree := do
  let place ← t.locate path
  if path.endsInSlash then throw .isDirectory
  match t.node? place with
  | some .directory => throw .isDirectory
  | _ => return t.set place (.file (.text []))

/-- Gives a file that is there another content. -/
def fill (t : FileTree) (path : Path) (content : FileContent) : Except StorageError FileTree := do
  let place ← t.locate path
  match t.node? place with
  | some .directory => throw .isDirectory
  | some (.file _) => return t.set place (.file content)
  | none => throw .notFound

/-- Moves a file to another path, in place of a file that is there. -/
def rename (t : FileTree) (source target : Path) : Except StorageError FileTree := do
  let sourcePlace ← t.locate source
  let targetPlace ← t.locate target
  if target.entryName?.isNone then throw .busy
  match t.node? sourcePlace with
  | some (.file content) =>
    if target.endsInSlash then throw .notDirectory
    if t.node? targetPlace = some .directory then throw .isDirectory
    return (t.erase sourcePlace).set targetPlace (.file content)
  | some .directory => throw .isDirectory
  | none => throw .notFound

/-- The text of a file. -/
def readText (t : FileTree) (path : Path) : Except StorageError (List Char) := do
  let place ← t.locate path
  match t.node? place with
  | some .directory => throw .isDirectory
  | some (.file content) =>
    if path.endsInSlash then throw .notDirectory
    match content with
    | .text chars => return chars
    | .picture _ => throw .notText
  | none => throw .notFound

end FileTree
end DomainColoring
