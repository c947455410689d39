import DomainColoring.Proofs.Outcome
import DomainColoring.Storage.FileTree

/-!
# What operations on files leave alone

Which place a path leads to depends on the directories and the working directory only, so it stays
the same when files come and go. Making directories leaves all files alone, whether it succeeds or
not; the other operations change a single place, which is no directory, or two when a file is moved.
-/

namespace DomainColoring.FileTree

variable {t t' t'' : FileTree} {place other found : List String} {node : FileNode}
  {path : Path} {names : List String}

theorem ne_nil_of_node? (noDirectory : t.node? place ≠ some .directory) : place ≠ [] := by
  rintro rfl
  exact noDirectory rfl

theorem find?_erase (t : FileTree) (place other : List String) :
    ((t.erase place).entries.find? fun entry => entry.1 = other) =
      if other = place then none else t.entries.find? fun entry => entry.1 = other := by
  rw [erase, List.find?_filter]
  split
  · next same =>
    subst same
    simp
  · next different =>
    congr 1
    funext entry
    by_cases here : entry.1 = other
    · simp [here, different]
    · simp [here]

theorem node?_erase (t : FileTree) (inside : place ≠ []) :
    (t.erase place).node? other = if other = place then none else t.node? other := by
  rw [node?, node?, find?_erase]
  by_cases root : other = []
  · rw [if_pos root, if_pos root, if_neg (fun same => inside (same.symm.trans root))]
  · rw [if_neg root, if_neg root]
    split <;> rfl

theorem node?_set (t : FileTree) (inside : place ≠ []) :
    (t.set place node).node? other = if other = place then some node else t.node? other := by
  rw [node?, node?, set, List.find?_append, find?_erase]
  by_cases root : other = []
  · rw [if_pos root, if_pos root, if_neg (fun same => inside (same.symm.trans root))]
  · rw [if_neg root, if_neg root]
    by_cases here : other = place
    · subst here
      simp
    · simp [here, Ne.symm here]

/-- The file in a place, if there is one. -/
def file? (t : FileTree) (place : List String) : Option FileContent :=
  match t.node? place with
  | some (.file content) => some content
  | _ => none

/-- What is a directory in one tree is one in the other, and relative paths begin in the same. -/
structure KeepsDirectories (t t' : FileTree) : Prop where
  sameStart : t'.workingDirectory = t.workingDirectory
  isDirectory : ∀ place, t.node? place = some .directory → t'.node? place = some .directory

theorem KeepsDirectories.refl (t : FileTree) : t.KeepsDirectories t :=
  ⟨rfl, fun _ isDirectory => isDirectory⟩

theorem KeepsDirectories.trans (first : t.KeepsDirectories t')
    (second : t'.KeepsDirectories t'') : t.KeepsDirectories t'' :=
  ⟨second.sameStart.trans first.sameStart,
    fun place isDirectory => second.isDirectory place (first.isDirectory place isDirectory)⟩

theorem KeepsDirectories.directoryFrom (keeps : t.KeepsDirectories t')
    (leads : t.directoryFrom place names = .ok found) :
    t'.directoryFrom place names = .ok found := by
  induction names generalizing place with
  | nil => exact leads
  | cons name rest inductionHypothesis =>
    rw [FileTree.directoryFrom] at leads ⊢
    by_cases up : name = ".."
    · rw [if_pos up] at leads ⊢
      exact inductionHypothesis leads
    · rw [if_neg up] at leads ⊢
      obtain ⟨next, entered, leadsOn⟩ := Outcome.bind_eq_ok_iff.mp leads
      refine Outcome.bind_eq_ok_iff.mpr ⟨next, entered, ?_⟩
      split at leadsOn
      · next isDirectory =>
        rw [keeps.isDirectory next isDirectory]
        exact inductionHypothesis leadsOn
      · exact absurd leadsOn Outcome.throw_ne_ok
      · exact absurd leadsOn Outcome.throw_ne_ok

theorem KeepsDirectories.start (keeps : t.KeepsDirectories t') {absolute : Bool}
    (begins : t.start absolute = .ok place) : t'.start absolute = .ok place := by
  unfold FileTree.start at begins ⊢
  split at begins
  · next fromRoot => rwa [if_pos fromRoot]
  · next relative =>
    split at begins
    · next isThere =>
      rwa [if_neg relative, keeps.sameStart, if_pos (keeps.isDirectory _ isThere)]
    · cases begins

/-- A path begins in a directory. -/
theorem node?_of_start {absolute : Bool} (begins : t.start absolute = .ok place) :
    t.node? place = some .directory := by
  unfold start at begins
  split at begins
  · cases begins
    rfl
  · split at begins
    · next isThere =>
      cases begins
      exact isThere
    · cases begins

/-- A path begins in the directory in which it begins in another tree, if it is there. -/
theorem start_of_node? (sameStart : t'.workingDirectory = t.workingDirectory) {absolute : Bool}
    (begins : t'.start absolute = .ok place) (isThere : t.node? place = some .directory) :
    t.start absolute = .ok place := by
  unfold start at begins ⊢
  split at begins
  · next fromRoot => rwa [if_pos fromRoot]
  · next relative =>
    split at begins
    · cases begins
      rw [sameStart] at isThere ⊢
      rw [if_neg relative, if_pos isThere]
    · cases begins

/-- A path that leads somewhere begins in a directory and goes on from there. -/
theorem locate_eq_ok_iff : t.locate path = .ok place ↔
    '\x00' ∉ path.text.toList ∧ path.text.isEmpty = false ∧
      ∃ start, t.start path.isAbsolute = .ok start ∧
        match path.entryName? with
        | some name => ∃ directory, t.directoryFrom start path.names.dropLast = .ok directory ∧
            name.utf8ByteSize ≤ nameLimit ∧ place = directory ++ [name]
        | none => t.directoryFrom start path.names = .ok place := by
  unfold locate
  split
  · next nul => simp [nul]
  · next noNul =>
    split
    · next empty => simp [empty]
    · next written =>
      simp only [noNul, written, not_false_eq_true, true_and, Outcome.bind_eq_ok_iff]
      refine exists_congr fun start => and_congr_right fun _ => ?_
      cases path.entryName? with
      | none => exact Iff.rfl
      | some name =>
        rw [Outcome.bind_eq_ok_iff]
        refine exists_congr fun directory => and_congr_right fun _ => ?_
        rw [entry]
        by_cases short : name.utf8ByteSize ≤ nameLimit <;> simp [short, eq_comm]

/-- A path that names an entry leads to the place of this name in the directory before it. -/
theorem locate_entry_iff {name : String} (named : path.entryName? = some name) :
    t.locate path = .ok place ↔
      '\x00' ∉ path.text.toList ∧ path.text.isEmpty = false ∧
      ∃ start, t.start path.isAbsolute = .ok start ∧
        ∃ directory, t.directoryFrom start path.names.dropLast = .ok directory ∧
          name.utf8ByteSize ≤ nameLimit ∧ place = directory ++ [name] := by
  rw [locate_eq_ok_iff, named]

/-- The place that a path leads to stays where it is. -/
theorem KeepsDirectories.locate (keeps : t.KeepsDirectories t')
    (leads : t.locate path = .ok place) : t'.locate path = .ok place := by
  obtain ⟨noNul, written, start, begins, leadsOn⟩ := locate_eq_ok_iff.mp leads
  refine locate_eq_ok_iff.mpr ⟨noNul, written, start, keeps.start begins, ?_⟩
  cases named : path.entryName? with
  | none =>
    rw [named] at leadsOn
    exact keeps.directoryFrom leadsOn
  | some name =>
    rw [named] at leadsOn
    obtain ⟨directory, before, isLast⟩ := leadsOn
    exact ⟨directory, keeps.directoryFrom before, isLast⟩

/-- The same places are directories, and relative paths begin in the same. -/
structure SameDirectories (t t' : FileTree) : Prop where
  sameStart : t'.workingDirectory = t.workingDirectory
  isDirectory_iff : ∀ place, t.node? place = some .directory ↔ t'.node? place = some .directory

namespace SameDirectories

theorem refl (t : FileTree) : t.SameDirectories t := ⟨rfl, fun _ => Iff.rfl⟩

theorem symm (same : t.SameDirectories t') : t'.SameDirectories t :=
  ⟨same.sameStart.symm, fun place => (same.isDirectory_iff place).symm⟩

theorem trans (first : t.SameDirectories t') (second : t'.SameDirectories t'') :
    t.SameDirectories t'' :=
  ⟨second.sameStart.trans first.sameStart,
    fun place => (first.isDirectory_iff place).trans (second.isDirectory_iff place)⟩

theorem keeps (same : t.SameDirectories t') : t.KeepsDirectories t' :=
  ⟨same.sameStart, fun place => (same.isDirectory_iff place).mp⟩

/-- Paths lead to the same places. -/
theorem locate_iff (same : t.SameDirectories t') :
    t.locate path = .ok place ↔ t'.locate path = .ok place :=
  ⟨same.keeps.locate, same.symm.keeps.locate⟩

end SameDirectories

/-- A file in a place that is no directory changes no directories. -/
theorem sameDirectories_set (noDirectory : t.node? place ≠ some .directory)
    (content : FileContent) : t.SameDirectories (t.set place (.file content)) := by
  refine ⟨rfl, fun other => ?_⟩
  rw [node?_set t (ne_nil_of_node? noDirectory)]
  split
  · next same =>
    rw [same]
    exact ⟨fun isDirectory => absurd isDirectory noDirectory, nofun⟩
  · exact Iff.rfl

/-- Without what lay in a place that is no directory there are the same directories. -/
theorem sameDirectories_erase (noDirectory : t.node? place ≠ some .directory) :
    t.SameDirectories (t.erase place) := by
  refine ⟨rfl, fun other => ?_⟩
  rw [node?_erase t (ne_nil_of_node? noDirectory)]
  split
  · next same =>
    rw [same]
    exact ⟨fun isDirectory => absurd isDirectory noDirectory, nofun⟩
  · exact Iff.rfl

/-- Nothing differs but what lies in the places that some paths lead to, and no directory does. -/
structure ChangesOnly (paths : List Path) (t t' : FileTree) : Prop where
  directories : t.SameDirectories t'
  elsewhere : ∀ place, (∀ path ∈ paths, t.locate path ≠ .ok place) → t'.node? place = t.node? place

namespace ChangesOnly

variable {paths more : List Path}

theorem refl (paths : List Path) (t : FileTree) : ChangesOnly paths t t :=
  ⟨.refl t, fun _ _ => rfl⟩

theorem trans (first : ChangesOnly paths t t') (second : ChangesOnly paths t' t'') :
    ChangesOnly paths t t'' := by
  refine ⟨first.directories.trans second.directories, fun place notThere => ?_⟩
  rw [← first.elsewhere place notThere]
  refine second.elsewhere place fun path member leads => ?_
  exact notThere path member (first.directories.locate_iff.mpr leads)

theorem mono (changes : ChangesOnly paths t t') (within : paths ⊆ more) :
    ChangesOnly more t t' :=
  ⟨changes.directories, fun place notThere =>
    changes.elsewhere place fun path member => notThere path (within member)⟩

end ChangesOnly

theorem changesOnly_set {content : FileContent} (leads : t.locate path = .ok place)
    (noDirectory : t.node? place ≠ some .directory) :
    ChangesOnly [path] t (t.set place (.file content)) := by
  refine ⟨sameDirectories_set noDirectory content, fun other notThere => ?_⟩
  have different : other ≠ place := by
    rintro rfl
    exact notThere path (List.mem_singleton_self path) leads
  rw [node?_set t (ne_nil_of_node? noDirectory), if_neg different]

/-- The other tree has all directories of the tree, maybe more of them, and the same files. -/
structure Extends (t t' : FileTree) : Prop where
  keeps : t.KeepsDirectories t'
  files : ∀ place, t'.file? place = t.file? place

namespace Extends

theorem refl (t : FileTree) : t.Extends t := ⟨.refl t, fun _ => rfl⟩

theorem trans (first : t.Extends t') (second : t'.Extends t'') : t.Extends t'' :=
  ⟨first.keeps.trans second.keeps, fun place => (second.files place).trans (first.files place)⟩

end Extends

theorem extends_set_directory (absent : t.node? place = none) :
    t.Extends (t.set place .directory) := by
  have inside : place ≠ [] := by
    rintro rfl
    cases absent
  refine ⟨⟨rfl, fun other isDirectory => ?_⟩, fun other => ?_⟩
  · rw [node?_set t inside]
    split
    · rfl
    · exact isDirectory
  · by_cases here : other = place
    · simp [file?, node?_set t inside, here, absent]
    · simp [file?, node?_set t inside, here]

theorem extends_makeDirectory (made : t.makeDirectory path = .ok t') : t.Extends t' := by
  obtain ⟨place, -, made⟩ := Outcome.bind_eq_ok_iff.mp made
  split at made
  · exact absurd made Outcome.throw_ne_ok
  · next absent =>
    cases made
    exact extends_set_directory absent

theorem extends_settle (t : FileTree) (path : Path) :
    t.Extends (t.settle (t.makeDirectory path)).1 := by
  cases made : t.makeDirectory path with
  | error refused => exact .refl t
  | ok changed => exact extends_makeDirectory made

theorem extends_ensureDirectory (t : FileTree) (path : Path) :
    t.Extends (t.ensureDirectory path).1 := by
  unfold ensureDirectory
  split
  · exact .refl t
  · exact extends_settle t path

theorem extends_ensureDirectoryAfter {prepared : FileTree × Except StorageError Unit}
    (extends_ : t.Extends prepared.1) (path : Path) :
    t.Extends (t.ensureDirectoryAfter path prepared).1 := by
  obtain ⟨prepared, outcome⟩ := prepared
  unfold ensureDirectoryAfter
  split
  · next same =>
    cases same
    exact extends_.trans (extends_ensureDirectory prepared path)
  · exact extends_
  · exact extends_ensureDirectory t path

theorem extends_ensureDirectoriesAlong (t : FileTree) (absolute : Bool) (names : List String) :
    t.Extends (t.ensureDirectoriesAlong absolute names).1 := by
  induction names with
  | nil => exact .refl t
  | cons name before inductionHypothesis =>
    exact extends_ensureDirectoryAfter inductionHypothesis _

/-- Making directories leaves files and directories as they are, even if it fails halfway. -/
theorem extends_makeDirectories (t : FileTree) (path : Path) :
    t.Extends (t.makeDirectories path).1 := by
  unfold makeDirectories
  split
  · exact .refl t
  · exact extends_ensureDirectoryAfter (extends_ensureDirectoriesAlong t _ _) path

theorem createFile_eq_ok_iff : t.createFile path = .ok t' ↔
    ∃ place, t.locate path = .ok place ∧ path.endsInSlash = false ∧
      t.node? place ≠ some .directory ∧ t' = t.set place (.file (.text [])) := by
  refine Outcome.bind_eq_ok_iff.trans (exists_congr fun place => and_congr_right fun _ => ?_)
  cases path.endsInSlash with
  | true => simp [Outcome.throw_ne_ok, Outcome.bind_eq_ok_iff]
  | false =>
    split
    · next isDirectory => simp [isDirectory, Outcome.throw_ne_ok]
    · next noDirectory =>
      have free : t.node? place ≠ some .directory := noDirectory
      simp [Outcome.pure_eq_ok_iff, free]

theorem fill_eq_ok_iff {content : FileContent} : t.fill path content = .ok t' ↔
    ∃ place old, t.locate path = .ok place ∧ t.node? place = some (.file old) ∧
      t' = t.set place (.file content) := by
  refine Outcome.bind_eq_ok_iff.trans (exists_congr fun place => ?_)
  rw [exists_and_left]
  refine and_congr_right fun _ => ?_
  split
  · next isDirectory => simp [isDirectory, Outcome.throw_ne_ok]
  · next isFile => simp [isFile, Outcome.pure_eq_ok_iff]
  · next absent => simp [absent, Outcome.throw_ne_ok]

theorem rename_eq_ok_iff {source target : Path} : t.rename source target = .ok t' ↔
    ∃ origin place content, t.locate source = .ok origin ∧ t.locate target = .ok place ∧
      target.entryName?.isSome ∧ t.node? origin = some (.file content) ∧
      target.endsInSlash = false ∧ t.node? place ≠ some .directory ∧
      t' = (t.erase origin).set place (.file content) := by
  refine Outcome.bind_eq_ok_iff.trans (exists_congr fun origin => ?_)
  simp only [exists_and_left]
  refine and_congr_right fun _ => Outcome.bind_eq_ok_iff.trans (exists_congr fun place => ?_)
  refine and_congr_right fun _ => ?_
  cases target.entryName? with
  | none => simp [Outcome.throw_ne_ok, Outcome.bind_eq_ok_iff]
  | some name =>
    rcases t.node? origin with _ | _ | content
    · simp [Outcome.throw_ne_ok]
    · simp [Outcome.throw_ne_ok]
    · cases target.endsInSlash <;> by_cases isDirectory : t.node? place = some .directory <;>
        simp [isDirectory, Outcome.throw_ne_ok, Outcome.pure_eq_ok_iff, Outcome.map_throw,
          Outcome.bind_eq_ok_iff]

theorem readText_eq_ok_iff {chars : List Char} : t.readText path = .ok chars ↔
    ∃ place, t.locate path = .ok place ∧ t.node? place = some (.file (.text chars)) ∧
      path.endsInSlash = false := by
  refine Outcome.bind_eq_ok_iff.trans (exists_congr fun place => and_congr_right fun _ => ?_)
  rcases t.node? place with _ | _ | content
  · simp [Outcome.throw_ne_ok]
  · simp [Outcome.throw_ne_ok]
  · cases path.endsInSlash with
    | true => simp [Outcome.throw_ne_ok, Outcome.bind_eq_ok_iff]
    | false =>
      cases content with
      | text found => exact Outcome.pure_eq_ok_iff.trans (by simp [eq_comm])
      | picture raster => simp [Outcome.throw_ne_ok]

end DomainColoring.FileTree
