import DomainColoring.Proofs.Storage.Path
import DomainColoring.Proofs.Storage.Replacement

/-!
# Trees without loose ends

In a file tree that is grounded everything lies in a directory. All steps keep it so, whether they
succeed or not. In such a tree a path without a way up leads to what lies in the place of its
names, if anything does: there is no other obstacle on the way to it. With a way up this fails, as
a missing directory stands in the way even if the path leaves it again.
-/

namespace DomainColoring

variable {t t' : FileTree} {path : Path} {name : String} {names place found : List String}

namespace FileTree

/-- Behind its last name a path leads into a directory, unless this name leads up. -/
theorem directoryFrom_concat {front : List String} {last : String} (noWayUp : last ≠ "..")
    (leads : t.directoryFrom place (front ++ [last]) = .ok found) :
    ∃ before, t.directoryFrom place front = .ok before ∧ found = before ++ [last] ∧
      t.node? found = some .directory := by
  induction front generalizing place with
  | nil =>
    rw [List.nil_append, directoryFrom, if_neg noWayUp] at leads
    obtain ⟨next, entered, leadsOn⟩ := Outcome.bind_eq_ok_iff.mp leads
    unfold entry at entered
    split at entered
    · cases entered
      split at leadsOn
      · next isDirectory =>
        cases leadsOn
        exact ⟨place, rfl, rfl, isDirectory⟩
      · exact absurd leadsOn Outcome.throw_ne_ok
      · exact absurd leadsOn Outcome.throw_ne_ok
    · cases entered
  | cons name rest inductionHypothesis =>
    rw [List.cons_append, directoryFrom] at leads
    rw [directoryFrom]
    by_cases up : name = ".."
    · rw [if_pos up] at leads ⊢
      exact inductionHypothesis leads
    · rw [if_neg up] at leads ⊢
      obtain ⟨next, entered, leadsOn⟩ := Outcome.bind_eq_ok_iff.mp leads
      split at leadsOn
      · next isDirectory =>
        obtain ⟨before, leadsBefore, isLast⟩ := inductionHypothesis leadsOn
        refine ⟨before, Outcome.bind_eq_ok_iff.mpr ⟨next, entered, ?_⟩, isLast⟩
        rw [isDirectory]
        exact leadsBefore
      · exact absurd leadsOn Outcome.throw_ne_ok
      · exact absurd leadsOn Outcome.throw_ne_ok

/-- A path without a way up leads through just its names. -/
theorem directoryFrom_eq_append (noWayUp : ".." ∉ names)
    (leads : t.directoryFrom place names = .ok found) : found = place ++ names := by
  induction names using List.reverseRecOn generalizing found with
  | nil =>
    cases leads
    exact (List.append_nil place).symm
  | append_singleton front last inductionHypothesis =>
    have inFront : ".." ∉ front := fun up => noWayUp (List.mem_append_left _ up)
    have notLast : last ≠ ".." := by
      rintro rfl
      exact noWayUp (List.mem_append_right _ (List.mem_singleton_self _))
    obtain ⟨before, leadsBefore, rfl, -⟩ := directoryFrom_concat notLast leads
    rw [inductionHypothesis inFront leadsBefore, List.append_assoc]

/-- A path that is written as one of a directory itself leads to a directory or nowhere. -/
theorem node?_of_locate (named : path.fileName? = some name) (noEntry : path.entryName? = none)
    (leads : t.locate path = .ok place) :
    (∃ before, place = before ++ [name]) ∧ t.node? place = some .directory := by
  obtain ⟨-, -, start, -, leadsOn⟩ := locate_eq_ok_iff.mp leads
  obtain ⟨shape, noWayUp⟩ := Path.names_of_fileName? named
  rw [noEntry, shape] at leadsOn
  obtain ⟨before, -, isLast, isDirectory⟩ := directoryFrom_concat noWayUp leadsOn
  exact ⟨⟨before, isLast⟩, isDirectory⟩

/-- The place that a path leads to has the file name of the path. -/
theorem place_of_locate (named : path.fileName? = some name) (leads : t.locate path = .ok place) :
    ∃ before, place = before ++ [name] := by
  cases entryNamed : path.entryName? with
  | none => exact (node?_of_locate named entryNamed leads).1
  | some entryName =>
    obtain rfl : entryName = name :=
      Option.some.inj ((Path.fileName?_of_entryName? entryNamed).symm.trans named)
    obtain ⟨-, -, -, -, directory, -, -, isLast⟩ := (locate_entry_iff entryNamed).mp leads
    exact ⟨directory, isLast⟩

/-- A path and its sibling never lead to the same place. -/
theorem place_ne_sibling {beside : List String} (named : path.fileName? = some name)
    (leads : t.locate path = .ok place) (besideLeads : t'.locate path.sibling = .ok beside) :
    place ≠ beside := by
  have siblingNamed := Path.fileName?_of_entryName? (Path.entryName?_sibling named)
  obtain ⟨before, rfl⟩ := place_of_locate named leads
  obtain ⟨siblingBefore, rfl⟩ := place_of_locate siblingNamed besideLeads
  intro same
  have names : [name] = [name ++ ".tmp"] := (List.append_inj' same rfl).2
  have lengths := congrArg String.length (List.singleton_inj.mp names)
  simp at lengths

/-- Everything lies in a directory. -/
def Grounded (t : FileTree) : Prop :=
  ∀ place name, t.node? (place ++ [name]) ≠ none → t.node? place = some .directory

namespace Grounded

/-- It is enough to look at the entries that there are. -/
theorem of_entries (inside : ∀ entry ∈ t.entries, t.node? entry.1.dropLast = some .directory) :
    t.Grounded := by
  intro place name present
  obtain ⟨node, found⟩ := Option.ne_none_iff_exists'.mp present
  rw [node?, if_neg (List.concat_ne_nil name place)] at found
  obtain ⟨entry, isEntry, -⟩ := Option.map_eq_some_iff.mp found
  have here : entry.1 = place ++ [name] := by simpa using List.find?_some isEntry
  have directory := inside entry (List.mem_of_find?_eq_some isEntry)
  rwa [here, List.dropLast_concat] at directory

/-- What is on the way to a directory is a directory. -/
theorem onTheWay (grounded : t.Grounded) {rest : List String}
    (isDirectory : t.node? (place ++ rest) = some .directory) :
    t.node? place = some .directory := by
  induction rest using List.reverseRecOn with
  | nil => rwa [List.append_nil] at isDirectory
  | append_singleton before last inductionHypothesis =>
    rw [← List.append_assoc] at isDirectory
    exact inductionHypothesis (grounded _ last (isDirectory ▸ Option.some_ne_none _))

/-- Names lead from a directory to a directory. -/
theorem directoryFrom (grounded : t.Grounded) (start : t.node? place = some .directory)
    (leads : t.directoryFrom place names = .ok found) : t.node? found = some .directory := by
  induction names generalizing place with
  | nil =>
    cases leads
    exact start
  | cons name rest inductionHypothesis =>
    rw [FileTree.directoryFrom] at leads
    split at leads
    · refine inductionHypothesis ?_ leads
      rcases List.eq_nil_or_concat place with rfl | ⟨before, last, rfl⟩
      · exact start
      · rw [List.concat_eq_append, List.dropLast_concat]
        rw [List.concat_eq_append] at start
        exact grounded before last (start ▸ Option.some_ne_none _)
    · obtain ⟨next, -, leadsOn⟩ := Outcome.bind_eq_ok_iff.mp leads
      split at leadsOn
      · next isDirectory => exact inductionHypothesis isDirectory leadsOn
      · exact absurd leadsOn Outcome.throw_ne_ok
      · exact absurd leadsOn Outcome.throw_ne_ok

/-- A path leads to a directory or into one. -/
theorem locate (grounded : t.Grounded) (leads : t.locate path = .ok place) :
    t.node? place = some .directory ∨
      ∃ directory name, place = directory ++ [name] ∧ t.node? directory = some .directory := by
  cases entryNamed : path.entryName? with
  | some name =>
    obtain ⟨-, -, start, begins, directory, before, -, isLast⟩ :=
      (locate_entry_iff entryNamed).mp leads
    exact .inr ⟨directory, name, isLast, grounded.directoryFrom (node?_of_start begins) before⟩
  | none =>
    obtain ⟨-, -, start, begins, leadsOn⟩ := locate_eq_ok_iff.mp leads
    rw [entryNamed] at leadsOn
    exact .inl (grounded.directoryFrom (node?_of_start begins) leadsOn)

/-- Something new may lie in a directory. -/
theorem set (grounded : t.Grounded) {node : FileNode}
    (inside : t.node? place = some .directory)
    (free : t.node? (place ++ [name]) = some .directory → node = .directory) :
    (t.set (place ++ [name]) node).Grounded := by
  have notNil : place ++ [name] ≠ [] := List.concat_ne_nil name place
  intro other last present
  rw [node?_set t notNil] at present ⊢
  by_cases here : other = place ++ [name]
  · subst here
    have longer : place ++ [name] ++ [last] ≠ place ++ [name] := by simp
    rw [if_neg longer] at present
    rw [if_pos rfl, free (grounded _ _ present)]
  · rw [if_neg here]
    by_cases same : other ++ [last] = place ++ [name]
    · rwa [(List.append_inj' same rfl).1]
    · rw [if_neg same] at present
      exact grounded _ _ present

/-- Nothing lies in what is no directory, so it can go. -/
theorem erase (grounded : t.Grounded) (noDirectory : t.node? place ≠ some .directory) :
    (t.erase place).Grounded := by
  intro other last present
  rw [node?_erase t (ne_nil_of_node? noDirectory)] at present ⊢
  split at present
  · exact absurd rfl present
  · have isDirectory := grounded _ _ present
    have different : other ≠ place := by
      rintro rfl
      exact noDirectory isDirectory
    rwa [if_neg different]

/-- A file may be put where a path leads to, unless it is a directory. -/
theorem set_file (grounded : t.Grounded) (leads : t.locate path = .ok place)
    (noDirectory : t.node? place ≠ some .directory) (content : FileContent) :
    (t.set place (.file content)).Grounded := by
  rcases grounded.locate leads with isDirectory | ⟨directory, name, rfl, inside⟩
  · exact absurd isDirectory noDirectory
  · exact grounded.set inside fun isDirectory => absurd isDirectory noDirectory

theorem makeDirectory (grounded : t.Grounded) (made : t.makeDirectory path = .ok t') :
    t'.Grounded := by
  obtain ⟨place, leads, made⟩ := Outcome.bind_eq_ok_iff.mp made
  split at made
  · exact absurd made Outcome.throw_ne_ok
  · next absent =>
    cases made
    rcases grounded.locate leads with isDirectory | ⟨directory, name, rfl, inside⟩
    · rw [absent] at isDirectory
      cases isDirectory
    · exact grounded.set inside fun _ => rfl

theorem settle (grounded : t.Grounded) {attempt : Except StorageError FileTree}
    (changed : ∀ t', attempt = .ok t' → t'.Grounded) : (t.settle attempt).1.Grounded := by
  cases attempt with
  | error refused => exact grounded
  | ok t' => exact changed t' rfl

theorem ensureDirectory (grounded : t.Grounded) (path : Path) :
    (t.ensureDirectory path).1.Grounded := by
  unfold FileTree.ensureDirectory
  split
  · exact grounded
  · exact grounded.settle fun _ => grounded.makeDirectory

theorem ensureDirectoryAfter (grounded : t.Grounded)
    {prepared : FileTree × Except StorageError Unit} (ready : prepared.1.Grounded) (path : Path) :
    (t.ensureDirectoryAfter path prepared).1.Grounded := by
  obtain ⟨prepared, outcome⟩ := prepared
  unfold FileTree.ensureDirectoryAfter
  split
  · next same =>
    cases same
    exact Grounded.ensureDirectory ready path
  · exact ready
  · exact grounded.ensureDirectory path

theorem ensureDirectoriesAlong (grounded : t.Grounded) (absolute : Bool) (names : List String) :
    (t.ensureDirectoriesAlong absolute names).1.Grounded := by
  induction names with
  | nil => exact grounded
  | cons name before inductionHypothesis =>
    exact grounded.ensureDirectoryAfter inductionHypothesis _

theorem makeDirectories (grounded : t.Grounded) (path : Path) :
    (t.makeDirectories path).1.Grounded := by
  unfold FileTree.makeDirectories
  split
  · exact grounded
  · exact grounded.ensureDirectoryAfter (grounded.ensureDirectoriesAlong _ _) path

theorem rename (grounded : t.Grounded) {source target : Path}
    (moved : t.rename source target = .ok t') : t'.Grounded := by
  obtain ⟨origin, place, content, -, leads, -, isFile, -, free, rfl⟩ := rename_eq_ok_iff.mp moved
  have noDirectory : t.node? origin ≠ some .directory := by
    rw [isFile]
    nofun
  have same := sameDirectories_erase noDirectory
  refine (grounded.erase noDirectory).set_file (same.locate_iff.mp leads) ?_ content
  exact fun isDirectory => free ((same.isDirectory_iff place).mpr isDirectory)

/-- Every step keeps everything in directories, done or not. -/
theorem apply (grounded : t.Grounded) (step : StorageStep) : (step.apply t).1.Grounded := by
  cases step with
  | makeDirectories path => exact grounded.makeDirectories path
  | createFile path =>
    refine grounded.settle fun t' created => ?_
    obtain ⟨place, leads, -, free, rfl⟩ := createFile_eq_ok_iff.mp created
    exact grounded.set_file leads free _
  | write path content =>
    refine grounded.settle fun t' filled => ?_
    obtain ⟨place, old, leads, isFile, rfl⟩ := fill_eq_ok_iff.mp filled
    exact grounded.set_file leads (by rw [isFile]; nofun) content
  | sync path => exact grounded
  | rename source target => exact grounded.settle fun _ => grounded.rename

/-- Names without a way up lead to a directory, if they do so in another tree. -/
theorem directoryFrom_of_present (grounded : t.Grounded) (noWayUp : ".." ∉ names)
    (leads : t'.directoryFrom place names = .ok found)
    (isDirectory : t.node? found = some .directory) : t.directoryFrom place names = .ok found := by
  induction names generalizing place with
  | nil => exact leads
  | cons name rest inductionHypothesis =>
    have inRest : ".." ∉ rest := fun up => noWayUp (List.mem_cons_of_mem _ up)
    have notName : name ≠ ".." := by
      rintro rfl
      exact noWayUp List.mem_cons_self
    rw [FileTree.directoryFrom, if_neg notName] at leads ⊢
    obtain ⟨next, entered, leadsOn⟩ := Outcome.bind_eq_ok_iff.mp leads
    refine Outcome.bind_eq_ok_iff.mpr ⟨next, entered, ?_⟩
    split at leadsOn
    · have behind := directoryFrom_eq_append inRest leadsOn
      rw [grounded.onTheWay (behind ▸ isDirectory)]
      exact inductionHypothesis inRest leadsOn
    · exact absurd leadsOn Outcome.throw_ne_ok
    · exact absurd leadsOn Outcome.throw_ne_ok

/-- A path without a way up leads to what lies in the place that it leads to in another tree, if
relative paths begin in the same directory there. -/
theorem locate_of_present (grounded : t.Grounded) (entryNamed : path.entryName? = some name)
    (noWayUp : ".." ∉ path.names) (sameStart : t'.workingDirectory = t.workingDirectory)
    (leads : t'.locate path = .ok place) (present : t.node? place ≠ none) :
    t.locate path = .ok place := by
  obtain ⟨noNul, written, start, begins, directory, before, short, rfl⟩ :=
    (locate_entry_iff entryNamed).mp leads
  have inFront : ".." ∉ path.names.dropLast := fun up => noWayUp (List.mem_of_mem_dropLast up)
  have isDirectory := grounded _ _ present
  have behind := directoryFrom_eq_append inFront before
  have startThere : t.node? start = some .directory := grounded.onTheWay (behind ▸ isDirectory)
  exact (locate_entry_iff entryNamed).mpr ⟨noNul, written, start,
    start_of_node? sameStart begins startThere, directory,
    grounded.directoryFrom_of_present inFront before isDirectory, short, rfl⟩

end Grounded
end FileTree
end DomainColoring
