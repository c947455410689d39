/-!
# Paths

A path leads from the root or from the working directory through names divided by slashes. Empty
names and single points lead nowhere and are left out; two points lead back up.
-/

namespace DomainColoring

/-- A path as it is written. -/
structure Path where
  text : String
deriving DecidableEq

namespace Path

/-- The names of a text divided by slashes; `name` holds what was read of the one at hand,
backwards. -/
def split (name : List Char) : List Char → List (List Char)
  | [] => [name.reverse]
  | c :: rest => if c = '/' then name.reverse :: split [] rest else split (c :: name) rest

/-- The names in a path as it is written, points included. -/
def segments (p : Path) : List (List Char) :=
  (split [] p.text.toList).filter (· ≠ [])

/-- The names that a path leads through. -/
def names (p : Path) : List String :=
  (p.segments.filter (· ≠ ['.'])).map String.ofList

/-- Whether a path begins at the root of all files. -/
def isAbsolute (p : Path) : Bool :=
  p.text.toList.head? = some '/'

/-- Whether a path is written as one of a directory, with a slash behind its last name. -/
def endsInSlash (p : Path) : Bool :=
  p.text.toList.getLast? = some '/'

/-- The last name of a path, unless it leads up. -/
def fileName? (p : Path) : Option String :=
  p.names.getLast?.filter (· ≠ "..")

/-- The name of the entry that a path leads to. A path that ends in points leads to a directory
itself, and not to an entry that may be missing from it. -/
def entryName? (p : Path) : Option String :=
  if p.segments.getLast? = some ['.'] then none else p.fileName?

/-- The path through a list of names. -/
def ofNames (absolute : Bool) (names : List String) : Path :=
  ⟨(if absolute then "/" else "") ++ String.intercalate "/" names⟩

/-- The directory that holds what a path leads to; the working directory has an empty path. -/
def parent (p : Path) : Path :=
  ofNames p.isAbsolute p.names.dropLast

/-- The path with another last name. A path that has none is taken as that of a directory. -/
def withFileName (p : Path) (name : String) : Path :=
  match p.fileName? with
  | some _ => ofNames p.isAbsolute (p.names.dropLast ++ [name])
  | none => ofNames p.isAbsolute (p.names ++ [name])

/-- The path of a file in a directory. -/
def join (directory : Path) (name : String) : Path :=
  if directory.text.isEmpty || directory.endsInSlash then ⟨directory.text ++ name⟩
  else ⟨directory.text ++ "/" ++ name⟩

end Path
end DomainColoring
