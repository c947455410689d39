import DomainColoring.Proofs.Settings.Storage

/-!
# Saving that is interrupted

Wherever saving settings ends, and whether it fails or is cut off, the file holds what it held or
all of the settings. What a path leads to may change for another reason: making a directory that was
missing may open a way up behind it to a file that was there before.

All of this is about files with one name each. Nothing is claimed of a system in which the sibling
is a link: it may be a second name of the file itself, which creating it would empty.
-/

namespace DomainColoring.Settings

variable {State : Type} {h : Host (StateM State)} {before after : State} {s : Settings}
  {path : Path} {name : String}

/-- Saving does its steps, and succeeds only if they do. -/
theorem performAll_of_save {outcome : Except PlotError Unit}
    (ran : (save h path s).run before = (outcome, after)) :
    ∃ result, (h.performAll (saveSteps path s)).run before = (result, after) ∧
      (outcome = .ok () → result = .ok ()) := by
  rcases performed : (h.performAll (saveSteps path s)).run before with ⟨error | ⟨⟩, left⟩
  · cases (save_of_failed performed).symm.trans ran
    exact ⟨_, rfl, nofun⟩
  · cases (save_of_done performed).symm.trans ran
    exact ⟨_, rfl, fun _ => rfl⟩

/-- Wherever the steps that save settings end, the file that the path leads to is as it was or holds
all of the text, and no other file but the sibling is touched. So what is found on the path is what
was found on it before or all of the text, if the path led somewhere before or has no way up. Saving
with an honest host ends at one of these places, and if it succeeds, all of the text is found on the
path, and nothing in the place of the sibling. -/
theorem save_all_or_nothing (named : path.fileName? = some name) (s : Settings) :
    (∀ t t', StorageStep.Interrupted (saveSteps path s) t t' →
      (∀ place, t.locate path = .ok place → t'.locate path = .ok place) ∧
      (∀ place, t'.locate path = .ok place →
        t'.file? place = t.file? place ∨ t'.file? place = some (.text s.write)) ∧
      (∀ place, t'.locate path ≠ .ok place → t'.locate path.sibling ≠ .ok place →
        t'.file? place = t.file? place) ∧
      ((∃ place, t.locate path = .ok place) ∨ t.Grounded ∧ ".." ∉ path.names →
        t'.content? path = t.content? path ∨ t'.content? path = some (.text s.write))) ∧
    ∀ (State : Type) (h : Host (StateM State)) (files : State → FileTree)
      (reports : State → List String), h.Honest files reports →
      ∀ before outcome after, (save h path s).run before = (outcome, after) →
        StorageStep.Interrupted (saveSteps path s) (files before) (files after) ∧
        (outcome = .ok () →
          (files after).content? path = some (.text s.write) ∧
          ∀ beside, (files after).locate path.sibling = .ok beside →
            (files after).node? beside = none) := by
  refine ⟨fun t t' interrupted => ?_, ?_⟩
  · have replaced := interrupted.atMostReplaced named
    exact ⟨fun place => replaced.keeps.locate, replaced.target, replaced.elsewhere,
      replaced.content?_cases named⟩
  · intro State h files reports honest before outcome after ran
    obtain ⟨result, performed, succeeds⟩ := performAll_of_save ran
    obtain ⟨interrupted, finished⟩ := honest.interrupted performed
    exact ⟨interrupted, fun succeeded => (finished (succeeds succeeded)).replaced named⟩

/-- A file of settings, with a sibling of which only the first character was written. -/
theorem save_all_or_nothing_torn :
    let path : Path := ⟨"r.json"⟩
    let start : FileTree := ⟨[(["r.json"], .file (.text ['{', '}']))], []⟩
    let torn : FileTree := ⟨[(["r.json"], .file (.text ['{', '}'])),
      (["r.json.tmp"], .file (.text ['{']))], []⟩
    path.fileName? = some "r.json" ∧
    StorageStep.Interrupted (saveSteps path standard) start torn ∧
    (torn.content? path = start.content? path ∨
      torn.content? path = some (.text standard.write)) ∧
    ∃ saved, (save World.host path standard).run ⟨start, []⟩ = (.ok (), saved) ∧
      saved.files.content? path = some (.text standard.write) := by
  intro path start torn
  let created : FileTree := ⟨[(["r.json"], .file (.text ['{', '}'])),
    (["r.json.tmp"], .file (.text []))], []⟩
  have named : path.fileName? = some "r.json" := by decide
  have tears : FileTree.ChangesOnly [path.sibling] created torn :=
    FileTree.changesOnly_set (show created.locate path.sibling = .ok ["r.json.tmp"] by decide)
      (by decide)
  have parentless : StorageStep.makeParent path = [] := if_pos (by decide)
  have creates : (StorageStep.createFile path.sibling).apply start = (created, .ok ()) :=
    FileTree.settle_eq_ok_iff.mpr (FileTree.createFile_eq_ok_iff.mpr
      ⟨["r.json.tmp"], by decide, by decide, by decide, rfl⟩)
  have interrupted : StorageStep.Interrupted (saveSteps path standard) start torn := by
    rw [saveSteps, parentless, List.nil_append, StorageStep.replaceFile]
    generalize FileContent.text standard.write = content
    exact .behind creates (.within _ tears)
  let world : World := ⟨start, []⟩
  have isPlace : world.files.IsFilePlace path "r.json" ["r.json"] :=
    ⟨by decide, by decide, by decide, by decide⟩
  have room : world.files.HasRoomBeside "r.json" ["r.json"] := ⟨by decide, by decide⟩
  obtain ⟨saved, replaced⟩ := World.host_honest.replaceFile_of_room World.host_unhindered isPlace
    room (.text standard.write)
  have made :
      (World.host.performAll (StorageStep.makeParent path)).run world = (.ok (), world) := by
    rw [parentless]
    rfl
  have ran : (save World.host path standard).run world = (.ok (), saved) :=
    save_of_done ((performAll_saveSteps made).trans replaced)
  obtain ⟨anywhere, honestly⟩ := save_all_or_nothing named standard
  refine ⟨named, interrupted, ?_, saved, ran, ?_⟩
  · exact (anywhere start torn interrupted).2.2.2 (.inl ⟨["r.json"], isPlace.leads⟩)
  · have ended := honestly World World.host World.files World.reports World.host_honest _ _ _ ran
    exact (ended.2 rfl).1

/-- Saving through a directory that is missing fails beside a directory with the name of the
sibling. It was made before, so that the path now leads through it and up again to a file that was
not found there: what is found is neither nothing, as before, nor the settings. -/
theorem save_through_missing_directory :
    let path : Path := ⟨"a/../b/r.json"⟩
    let start : World := ⟨⟨[(["b"], .directory), (["b", "r.json"], .file (.text ['{', '}'])),
      (["b", "r.json.tmp"], .directory)], []⟩, []⟩
    let left := ((save World.host path standard).run start).2
    path.fileName? = some "r.json" ∧ start.files.Grounded ∧
    StorageStep.Interrupted (saveSteps path standard) start.files left.files ∧
    start.files.content? path = none ∧
    left.files.content? path = some (.text ['{', '}']) ∧
    ¬ (left.files.content? path = start.files.content? path ∨
      left.files.content? path = some (.text standard.write)) := by
  intro path start left
  have interrupted : StorageStep.Interrupted (saveSteps path standard) start.files left.files := by
    have ran : (save World.host path standard).run start =
        (((save World.host path standard).run start).1, left) := Prod.mk.eta.symm
    obtain ⟨result, performed, -⟩ := performAll_of_save ran
    exact (World.host_honest.interrupted performed).1
  have grounded : start.files.Grounded := .of_entries (by decide)
  have before : start.files.content? path = none := by decide
  have found : left.files.content? path = some (.text ['{', '}']) := by decide
  refine ⟨by decide, grounded, interrupted, before, found, ?_⟩
  rw [found, before]
  rintro (old | new)
  · cases old
  · exact absurd (Option.some.inj new) (by decide +kernel)

end DomainColoring.Settings
