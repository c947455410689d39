import DomainColoring.Proofs.Storage.Grounding

/-!
# Steps that are interrupted

A program may end between two of its steps, within one, or at one that fails. What it leaves of a
file that it replaces by way of a sibling is followed here: only the last step touches the file, and
that all at once, so the file is either what it was or has been replaced. Nothing is said of what
the sibling holds meanwhile. What was written to it may be lost, in part or in whole, until it is
synced.

There are no links in a file tree, so that different places are different files, and all of this is
claimed of such files only. If the sibling were a second name of the file itself, creating it would
empty the file, and moving it onto the file would leave both.
-/

namespace DomainColoring

variable {t t' between : FileTree} {path : Path} {name : String} {place : List String}
  {content : FileContent} {step : StorageStep} {steps first rest : List StorageStep}

namespace StorageStep

/-- What may be there when a program ends within a step. Only moving a file happens all at once. -/
def MayEndIn (t t' : FileTree) : StorageStep → Prop
  | makeDirectories _ => t.Extends t'
  | createFile path | write path _ | sync path => FileTree.ChangesOnly [path] t t'
  | rename _ _ => FileTree.ChangesOnly [] t t'

/-- What a failed step leaves may also be there when a program ends within it. -/
theorem mayEndIn_of_mayLeave (left : step.MayLeave t t') : step.MayEndIn t t' := by
  cases step with
  | makeDirectories path => exact left
  | createFile path => exact left
  | write path content => exact left
  | sync path => exact left.mono (List.nil_subset _)
  | rename source target => exact left

/-- What may be there when a program ends at any moment of its steps. -/
inductive Interrupted : List StorageStep → FileTree → FileTree → Prop where
  | before (steps : List StorageStep) (t : FileTree) : Interrupted steps t t
  | within {step : StorageStep} (rest : List StorageStep) {t t' : FileTree}
      (left : step.MayEndIn t t') : Interrupted (step :: rest) t t'
  | behind {step : StorageStep} {rest : List StorageStep} {t between t' : FileTree}
      (done : step.apply t = (between, .ok ())) (others : Interrupted rest between t') :
      Interrupted (step :: rest) t t'

theorem Done.interrupted (done : Done steps t t') : Interrupted steps t t' := by
  induction steps generalizing t with
  | nil =>
    cases done
    exact .before [] t'
  | cons step rest inductionHypothesis =>
    obtain ⟨between, first, others⟩ := done
    exact .behind first (inductionHypothesis others)

theorem done_append_iff :
    Done (first ++ rest) t t' ↔ ∃ between, Done first t between ∧ Done rest between t' := by
  induction first generalizing t with
  | nil => simp [Done]
  | cons step others inductionHypothesis =>
    simp only [List.cons_append, Done, inductionHypothesis]
    grind

/-- Steps are interrupted among the first of them, or among the others once the first are done. -/
theorem Interrupted.split (interrupted : Interrupted (first ++ rest) t t') :
    Interrupted first t t' ∨ ∃ between, Done first t between ∧ Interrupted rest between t' := by
  induction first generalizing t with
  | nil => exact .inr ⟨t, rfl, interrupted⟩
  | cons step others inductionHypothesis =>
    cases interrupted with
    | before => exact .inl (.before _ _)
    | within _ left => exact .inl (.within others left)
    | behind done behind =>
      rcases inductionHypothesis behind with among | ⟨between, othersDone, later⟩
      · exact .inl (.behind done among)
      · exact .inr ⟨between, ⟨_, done, othersDone⟩, later⟩

/-- A single step is done or not, if a program does not end within it. -/
theorem Interrupted.single (interrupted : Interrupted [step] t t') :
    t' = t ∨ step.MayEndIn t t' ∨ step.apply t = (t', .ok ()) := by
  cases interrupted with
  | before => exact .inl rfl
  | within _ left => exact .inr (.inl left)
  | behind done others =>
    cases others
    exact .inr (.inr done)

/-- The steps that make the directory of a file leave all files alone. -/
theorem Interrupted.extends_makeParent (interrupted : Interrupted (makeParent path) t t') :
    t.Extends t' := by
  unfold makeParent at interrupted
  split at interrupted
  · cases interrupted
    exact .refl t
  · rcases interrupted.single with rfl | left | made
    · exact .refl t'
    · exact left
    · have extended := t.extends_makeDirectories path.parent
      rwa [show t.makeDirectories path.parent = _ from made] at extended

/-- A step that fills a file or sees to it that it is kept. -/
def Fills (path : Path) : StorageStep → Prop
  | createFile file | write file _ | sync file => file = path
  | makeDirectories _ | rename _ _ => False

theorem changesOnly_of_fills (fills : step.Fills path) (done : step.apply t = (t', .ok ())) :
    FileTree.ChangesOnly [path] t t' := by
  cases step with
  | createFile file =>
    cases fills
    exact changesOnly_of_done rfl done
  | write file content =>
    cases fills
    exact changesOnly_of_done rfl done
  | sync file =>
    cases done
    exact .refl _ t
  | makeDirectories file => exact fills.elim
  | rename source target => exact fills.elim

/-- Steps that fill a file touch nothing else, wherever they are interrupted. -/
theorem Interrupted.changesOnly (fill : ∀ step ∈ steps, step.Fills path)
    (interrupted : Interrupted steps t t') : FileTree.ChangesOnly [path] t t' := by
  induction interrupted with
  | before _ t => exact .refl _ t
  | @within step _ _ _ left =>
    have fills := fill step List.mem_cons_self
    cases step <;> cases fills <;> exact left
  | behind done _ inductionHypothesis =>
    have stepFills := changesOnly_of_fills (fill _ List.mem_cons_self) done
    exact stepFills.trans
      (inductionHypothesis fun step member => fill step (List.mem_cons_of_mem _ member))

/-- The steps that make a file and fill it before it takes the place of another. -/
def fillSteps (path : Path) (content : FileContent) : List StorageStep :=
  [createFile path, write path content, sync path]

theorem fills_of_mem_fillSteps (member : step ∈ fillSteps path content) : step.Fills path := by
  simp only [fillSteps, List.mem_cons, List.not_mem_nil, or_false] at member
  rcases member with rfl | rfl | rfl <;> rfl

theorem replaceFile_eq (path : Path) (content : FileContent) :
    replaceFile path content = fillSteps path.sibling content ++ [rename path.sibling path] :=
  rfl

/-- Once they are done, the file is there and has the content. -/
theorem file_of_done (done : Done (fillSteps path content) t t') :
    ∃ place, t'.locate path = .ok place ∧ t'.node? place = some (.file content) := by
  obtain ⟨created, -, filled, wrote, _, synced, rfl⟩ := done
  cases synced
  obtain ⟨place, old, leads, isFile, rfl⟩ :=
    FileTree.fill_eq_ok_iff.mp (FileTree.settle_eq_ok_iff.mp wrote)
  have noDirectory : created.node? place ≠ some .directory := by
    rw [isFile]
    nofun
  refine ⟨place, (FileTree.sameDirectories_set noDirectory content).locate_iff.mp leads, ?_⟩
  rw [FileTree.node?_set _ (FileTree.ne_nil_of_node? noDirectory), if_pos rfl]

end StorageStep

namespace FileTree

/-- The file that a path leads to is what it was, or it has a content. All files but it and another
that is written on the way are the same, and what was a directory is one. -/
structure AtMostReplaced (path sibling : Path) (content : FileContent) (t t' : FileTree) :
    Prop where
  keeps : t.KeepsDirectories t'
  target : ∀ place, t'.locate path = .ok place →
    t'.file? place = t.file? place ∨ t'.file? place = some content
  elsewhere : ∀ place, t'.locate path ≠ .ok place → t'.locate sibling ≠ .ok place →
    t'.file? place = t.file? place

theorem file?_congr (same : t'.node? place = t.node? place) : t'.file? place = t.file? place := by
  rw [file?, file?, same]

namespace AtMostReplaced

variable {sibling : Path}

theorem of_files (keeps : t.KeepsDirectories t') (files : ∀ place, t'.file? place = t.file? place) :
    AtMostReplaced path sibling content t t' :=
  ⟨keeps, fun place _ => .inl (files place), fun place _ _ => files place⟩

theorem behind (extended : t.Extends between)
    (replaced : AtMostReplaced path sibling content between t') :
    AtMostReplaced path sibling content t t' := by
  refine ⟨extended.keeps.trans replaced.keeps, fun place leads => ?_, fun place other aside => ?_⟩
  · rw [← extended.files place]
    exact replaced.target place leads
  · rw [← extended.files place]
    exact replaced.elsewhere place other aside

/-- Where directories stay the same, a path leads to the same file all along. -/
theorem trans (first : AtMostReplaced path sibling content t between)
    (same : between.SameDirectories t')
    (second : AtMostReplaced path sibling content between t') :
    AtMostReplaced path sibling content t t' := by
  refine ⟨first.keeps.trans second.keeps, fun place leads => ?_, fun place other aside => ?_⟩
  · refine (second.target place leads).elim (fun kept => ?_) .inr
    rw [kept]
    exact first.target place (same.locate_iff.mpr leads)
  · rw [second.elsewhere place other aside]
    exact first.elsewhere place (fun leads => other (same.locate_iff.mp leads))
      fun leads => aside (same.locate_iff.mp leads)

/-- Filling the sibling does not touch the file. -/
theorem of_changesOnly (named : path.fileName? = some name)
    (changes : ChangesOnly [path.sibling] t t') :
    AtMostReplaced path path.sibling content t t' := by
  have untouched (place : List String) (aside : t'.locate path.sibling ≠ .ok place) :
      t'.file? place = t.file? place := by
    refine file?_congr (changes.elsewhere place fun other among => ?_)
    rw [List.mem_singleton.mp among]
    exact fun leads => aside (changes.directories.locate_iff.mp leads)
  refine ⟨changes.directories.keeps, fun place leads => .inl (untouched place ?_),
    fun place _ aside => untouched place aside⟩
  exact fun besideLeads => place_ne_sibling named leads besideLeads rfl

end AtMostReplaced

/-- Moving the sibling to the file gives the file the content of the sibling, which is gone. -/
theorem rename_sibling (named : path.fileName? = some name)
    (filled : ∃ beside, t.locate path.sibling = .ok beside ∧ t.node? beside = some (.file content))
    (moved : t.rename path.sibling path = .ok t') :
    (∃ place, t'.locate path = .ok place ∧ t'.node? place = some (.file content)) ∧
    (∀ beside, t'.locate path.sibling = .ok beside → t'.node? beside = none) ∧
    t.SameDirectories t' ∧
    ∀ place, t'.locate path ≠ .ok place → t'.locate path.sibling ≠ .ok place →
      t'.node? place = t.node? place := by
  obtain ⟨beside, besideLeads, isFilled⟩ := filled
  obtain ⟨origin, place, found, originLeads, leads, -, isFile, -, free, rfl⟩ :=
    rename_eq_ok_iff.mp moved
  obtain rfl : beside = origin := Except.ok.inj (besideLeads.symm.trans originLeads)
  obtain rfl : content = found := by
    rw [isFilled] at isFile
    exact FileNode.file.inj (Option.some.inj isFile)
  have apart : beside ≠ place := (place_ne_sibling named leads besideLeads).symm
  have noDirectory : t.node? beside ≠ some .directory := by
    rw [isFile]
    nofun
  have sameErased := sameDirectories_erase noDirectory
  have freeErased : (t.erase beside).node? place ≠ some .directory :=
    fun isDirectory => free ((sameErased.isDirectory_iff place).mpr isDirectory)
  have same := sameErased.trans (sameDirectories_set freeErased content)
  have node (other : List String) : ((t.erase beside).set place (.file content)).node? other =
      if other = place then some (.file content)
      else if other = beside then none else t.node? other := by
    rw [node?_set _ (ne_nil_of_node? free), node?_erase t (ne_nil_of_node? noDirectory)]
  refine ⟨⟨place, same.locate_iff.mp leads, by rw [node, if_pos rfl]⟩, ?_, same, ?_⟩
  · intro other otherLeads
    obtain rfl := Except.ok.inj ((same.locate_iff.mpr otherLeads).symm.trans besideLeads)
    rw [node, if_neg apart, if_pos rfl]
  · intro other notPlace notBeside
    have isOther : other ≠ place := by
      rintro rfl
      exact notPlace (same.locate_iff.mp leads)
    have isAside : other ≠ beside := by
      rintro rfl
      exact notBeside (same.locate_iff.mp besideLeads)
    rw [node, if_neg isOther, if_neg isAside]

/-- What is in the file that a path leads to, if it leads to one. -/
def content? (t : FileTree) (path : Path) : Option FileContent :=
  match t.locate path with
  | .ok place => t.file? place
  | .error _ => none

theorem content?_of_locate (leads : t.locate path = .ok place) :
    t.content? path = t.file? place := by
  rw [content?, leads]

theorem exists_of_content? (found : t.content? path = some content) :
    ∃ place, t.locate path = .ok place ∧ t.file? place = some content := by
  unfold content? at found
  split at found
  · next place leads => exact ⟨place, leads, found⟩
  · cases found

theorem node?_of_file? (found : t.file? place = some content) :
    t.node? place = some (.file content) := by
  unfold file? at found
  split at found
  · next same =>
    cases found
    exact same
  · cases found

/-- A file is found on a path that names an entry only. -/
theorem entryName?_of_content? (named : path.fileName? = some name)
    (found : t.content? path = some content) : path.entryName? = some name := by
  obtain ⟨place, leads, isFile⟩ := exists_of_content? found
  cases entryNamed : path.entryName? with
  | none =>
    have isDirectory := (node?_of_locate named entryNamed leads).2
    rw [node?_of_file? isFile] at isDirectory
    cases isDirectory
  | some entryName => exact (Path.fileName?_of_entryName? entryNamed).symm.trans named

/-- Where directories are kept, a path leads to the file that it led to. -/
theorem KeepsDirectories.file?_of_content? (keeps : t.KeepsDirectories t')
    (leads : t'.locate path = .ok place) (found : t.content? path = some content) :
    t.file? place = some content := by
  obtain ⟨before, leadsBefore, isFile⟩ := exists_of_content? found
  obtain rfl := Except.ok.inj ((keeps.locate leadsBefore).symm.trans leads)
  exact isFile

/-- A path leads to a file only if it has done so before, unless a directory was missing on a way
that leads up again. -/
theorem locate_of_file? (named : path.fileName? = some name) (keeps : t.KeepsDirectories t')
    (certain : (∃ place, t.locate path = .ok place) ∨ t.Grounded ∧ ".." ∉ path.names)
    (found : t'.content? path = some content) (leads : t'.locate path = .ok place)
    (isFile : t.file? place = some content) : t.locate path = .ok place := by
  rcases certain with ⟨before, leadsBefore⟩ | ⟨grounded, noWayUp⟩
  · obtain rfl := Except.ok.inj ((keeps.locate leadsBefore).symm.trans leads)
    exact leadsBefore
  · have present : t.node? place ≠ none := by
      rw [node?_of_file? isFile]
      nofun
    exact grounded.locate_of_present (entryName?_of_content? named found) noWayUp keeps.sameStart
      leads present

/-- What is found on a path is what was found on it before, or the new content. -/
theorem AtMostReplaced.content?_cases {sibling : Path} (named : path.fileName? = some name)
    (replaced : AtMostReplaced path sibling content t t')
    (certain : (∃ place, t.locate path = .ok place) ∨ t.Grounded ∧ ".." ∉ path.names) :
    t'.content? path = t.content? path ∨ t'.content? path = some content := by
  cases leads : t'.locate path with
  | error e =>
    left
    have nothing : t.content? path = none := by
      rw [Option.eq_none_iff_forall_ne_some]
      intro old found
      obtain ⟨place, leadsBefore, -⟩ := exists_of_content? found
      cases leads.symm.trans (replaced.keeps.locate leadsBefore)
    rw [nothing, content?, leads]
  | ok place =>
    refine (replaced.target place leads).imp (fun same => ?_) (content?_of_locate leads).trans
    refine Option.ext fun old => ?_
    constructor
    · intro found
      have isFile : t.file? place = some old := by
        rw [← same, ← content?_of_locate leads]
        exact found
      rw [content?_of_locate (locate_of_file? named replaced.keeps certain found leads isFile)]
      exact isFile
    · intro found
      rw [content?_of_locate leads, same]
      exact replaced.keeps.file?_of_content? leads found

end FileTree

namespace StorageStep

/-- Wherever the steps that replace a file are interrupted, the file is replaced or left alone. -/
theorem Interrupted.atMostReplaced (named : path.fileName? = some name)
    (interrupted : Interrupted (makeParent path ++ replaceFile path content) t t') :
    FileTree.AtMostReplaced path path.sibling content t t' := by
  rcases interrupted.split with preparing | ⟨prepared, made, replacing⟩
  · have extended := preparing.extends_makeParent
    exact .of_files extended.keeps extended.files
  refine .behind made.interrupted.extends_makeParent ?_
  rw [replaceFile_eq] at replacing
  rcases replacing.split with filling | ⟨filled, fills, moving⟩
  · exact .of_changesOnly named (filling.changesOnly fun _ => fills_of_mem_fillSteps)
  have changes := fills.interrupted.changesOnly fun _ => fills_of_mem_fillSteps
  have untouched : FileTree.AtMostReplaced path path.sibling content prepared filled :=
    .of_changesOnly named changes
  rcases moving.single with rfl | left | moved
  · exact untouched
  · exact .of_changesOnly named (changes.trans (left.mono (List.nil_subset _)))
  · obtain ⟨⟨place, leads, isFile⟩, -, same, others⟩ :=
      FileTree.rename_sibling named (file_of_done fills) (FileTree.settle_eq_ok_iff.mp moved)
    refine untouched.trans same ⟨same.keeps, fun found foundLeads => .inr ?_,
      fun other notPath notSibling => FileTree.file?_congr (others other notPath notSibling)⟩
    obtain rfl := Except.ok.inj (leads.symm.trans foundLeads)
    rw [FileTree.file?, isFile]

/-- When the steps that replace a file are done, the file has the new content, and the sibling is
gone. -/
theorem Done.replaced (named : path.fileName? = some name)
    (done : Done (makeParent path ++ replaceFile path content) t t') :
    t'.content? path = some content ∧
      ∀ beside, t'.locate path.sibling = .ok beside → t'.node? beside = none := by
  obtain ⟨prepared, -, replacing⟩ := done_append_iff.mp done
  rw [replaceFile_eq] at replacing
  obtain ⟨filled, fills, _, moved, rfl⟩ := done_append_iff.mp replacing
  obtain ⟨⟨place, leads, isFile⟩, gone, -⟩ :=
    FileTree.rename_sibling named (file_of_done fills) (FileTree.settle_eq_ok_iff.mp moved)
  refine ⟨?_, gone⟩
  rw [FileTree.content?_of_locate leads, FileTree.file?, isFile]

end StorageStep

/-- An honest host leaves what may be there when the steps are interrupted. If it reports success,
they are all done. -/
theorem Host.Honest.interrupted {State : Type} {h : Host (StateM State)} {files : State → FileTree}
    {reports : State → List String} (honest : h.Honest files reports) {before after : State}
    {outcome : Except StorageError Unit}
    (ran : (h.performAll steps).run before = (outcome, after)) :
    StorageStep.Interrupted steps (files before) (files after) ∧
      (outcome = .ok () → StorageStep.Done steps (files before) (files after)) := by
  induction steps generalizing before with
  | nil =>
    cases ran
    exact ⟨.before [] _, fun _ => rfl⟩
  | cons step rest inductionHypothesis =>
    rw [performAll_run_cons] at ran
    rcases performed : (h.perform step).run before with ⟨error | ⟨⟩, next⟩ <;>
      rw [performed] at ran
    · cases ran
      have left := honest.failed step before after error performed
      exact ⟨.within rest (StorageStep.mayEndIn_of_mayLeave left), nofun⟩
    · have done := honest.done step before next performed
      obtain ⟨interrupted, finished⟩ := inductionHypothesis ran
      exact ⟨.behind done interrupted, fun succeeded => ⟨_, done, finished succeeded⟩⟩

end DomainColoring
