import DomainColoring.Proofs.Settings.Text
import DomainColoring.Proofs.Storage.Interruption
import DomainColoring.Settings.Storage

/-!
# Settings saved and loaded

Settings that drawing can use are the same after they were saved in a file and loaded from it. They
cannot be saved if the sibling that they are first written to cannot be made. What else may stand in
the way is up to the host, which may fail at any step; but it does what it reports, so that there
are no links among its files.
-/

namespace DomainColoring.Settings

variable {State : Type} {h : Host (StateM State)} {files : State → FileTree}
  {reports : State → List String} {before prepared after : State} {s : Settings} {path : Path}
  {name : String} {place : List String}

theorem save_of_done
    (done : (h.performAll (saveSteps path s)).run before = (.ok (), after)) :
    (save h path s).run before = (.ok (), after) := by
  rw [save, Host.run_bind, done]
  rfl

theorem save_of_failed {error : StorageError}
    (failed : (h.performAll (saveSteps path s)).run before = (.error error, after)) :
    (save h path s).run before = (.error (.storage error.message), after) := by
  rw [save, Host.run_bind, failed]
  rfl

/-- Once the directory is there, what is left of saving is replacing the file. -/
theorem performAll_saveSteps
    (made : (h.performAll (StorageStep.makeParent path)).run before = (.ok (), prepared)) :
    (h.performAll (saveSteps path s)).run before =
      (h.performAll (StorageStep.replaceFile path (.text s.write))).run prepared :=
  Host.performAll_append_of_done made

/-- Once settings were saved, their text is found in the file. -/
theorem readText_of_saved (honest : h.Honest files reports)
    (named : path.fileName? = some name) (noSlash : path.endsInSlash = false)
    (done : (h.performAll (saveSteps path s)).run before = (.ok (), after)) :
    (files after).readText path = .ok s.write := by
  have steps : StorageStep.Done (saveSteps path s) (files before) (files after) :=
    (honest.interrupted done).2 rfl
  obtain ⟨place, leads, isFile⟩ := FileTree.exists_of_content? (steps.replaced named).1
  exact FileTree.readText_eq_ok_iff.mpr
    ⟨place, leads, FileTree.node?_of_file? isFile, noSlash⟩

/-- Settings that can be read back from their text are loaded from a file that holds it. -/
theorem load_of_written (readsBack : h.ReadsBack files) (readable : read s.write = .ok s)
    (holds : (files after).readText path = .ok s.write) :
    ((load h path).run after).1 = .ok s := by
  have text := readsBack path after s.write holds
  rw [load, Host.run_bind, text]
  exact readable

/-- Settings that drawing can use are the same after they were saved, in a new file or in place of
one, and loaded again. They are saved exactly if the file can be replaced by way of its sibling, and
where nothing but files and directories stands in the way, it can exactly if there is room for the
sibling. What it takes for the text to be read back is assumed of the numbers only. -/
theorem load_after_save (valid : s.validate = .ok ()) (hue : s.hue.IsProper)
    (lightness : s.lightness.IsProper) (rereads : ∀ x ∈ s.numbers, Json.Rereads x)
    (honest : h.Honest files reports) (readsBack : h.ReadsBack files)
    (made : (h.performAll (StorageStep.makeParent path)).run before = (.ok (), prepared))
    (isPlace : (files prepared).IsFilePlace path name place) :
    let replace := h.performAll (StorageStep.replaceFile path (.text s.write))
    (∀ saved, replace.run prepared = (.ok (), saved) →
      (save h path s).run before = (.ok (), saved) ∧ ((load h path).run saved).1 = .ok s) ∧
    (∀ error left, replace.run prepared = (.error error, left) →
      (save h path s).run before = (.error (.storage error.message), left)) ∧
    ((∃ saved, replace.run prepared = (.ok (), saved)) →
      (files prepared).HasRoomBeside name place) ∧
    (h.Unhindered files → (files prepared).HasRoomBeside name place →
      ∃ saved, replace.run prepared = (.ok (), saved)) := by
  intro replace
  refine ⟨fun saved replaced => ?_, fun error left failed => ?_, ?_, fun unhindered room => ?_⟩
  · have done := (performAll_saveSteps made).trans replaced
    have holds :=
      readText_of_saved honest (Path.fileName?_of_entryName? isPlace.named) isPlace.noSlash done
    exact ⟨save_of_done done,
      load_of_written readsBack (read_write valid hue lightness rereads) holds⟩
  · exact save_of_failed ((performAll_saveSteps made).trans failed)
  · rintro ⟨saved, replaced⟩
    exact honest.room_of_replaceFile isPlace replaced
  · exact honest.replaceFile_of_room unhindered isPlace room (.text s.write)

/-- The standard settings, saved in a new file of a directory that is missing at first. The path
begins at the root, whichever directory the program works in. -/
theorem load_after_save_standard :
    let path : Path := ⟨"/tmp/d/r.json"⟩
    let start : World := ⟨⟨[(["w"], .directory), (["tmp"], .directory)], ["w"]⟩, []⟩
    let prepared : World :=
      ⟨⟨[(["w"], .directory), (["tmp"], .directory), (["tmp", "d"], .directory)], ["w"]⟩, []⟩
    standard.validate = .ok () ∧ standard.hue.IsProper ∧ standard.lightness.IsProper ∧
    (∀ x ∈ standard.numbers, Json.Rereads x) ∧
    World.host.Honest World.files World.reports ∧ World.host.ReadsBack World.files ∧
    (World.host.performAll (StorageStep.makeParent path)).run start = (.ok (), prepared) ∧
    prepared.files.IsFilePlace path "r.json" ["tmp", "d", "r.json"] ∧
    World.host.Unhindered World.files ∧
    prepared.files.HasRoomBeside "r.json" ["tmp", "d", "r.json"] ∧
    ∃ saved, (save World.host path standard).run start = (.ok (), saved) ∧
      ((load World.host path).run saved).1 = .ok standard := by
  intro path start prepared
  have hue : standard.hue.IsProper := rfl
  have lightness : standard.lightness.IsProper := rfl
  have rereads : ∀ x ∈ standard.numbers, Json.Rereads x := by decide +kernel
  have made :
      (World.host.performAll (StorageStep.makeParent path)).run start = (.ok (), prepared) := by
    dsimp only [path, start, prepared]
    rfl
  have isPlace : prepared.files.IsFilePlace path "r.json" ["tmp", "d", "r.json"] :=
    ⟨by decide, by decide, by decide, by decide⟩
  have room : prepared.files.HasRoomBeside "r.json" ["tmp", "d", "r.json"] :=
    ⟨by decide, by decide⟩
  obtain ⟨saves, -, -, replaces⟩ := load_after_save rfl hue lightness rereads World.host_honest
    World.host_readsBack made isPlace
  obtain ⟨saved, replaced⟩ := replaces World.host_unhindered room
  exact ⟨rfl, hue, lightness, rereads, World.host_honest, World.host_readsBack, made, isPlace,
    World.host_unhindered, room, saved, saves saved replaced⟩

/-- Where a directory has the name of the sibling, the standard settings cannot be saved in a new
file, so there is none to load them from. -/
theorem save_beside_directory :
    let start : World := ⟨⟨[(["r.json.tmp"], .directory)], []⟩, []⟩
    let left := ((save World.host ⟨"r.json"⟩ standard).run start).2
    standard.validate = .ok () ∧ standard.hue.IsProper ∧ standard.lightness.IsProper ∧
    (∀ x ∈ standard.numbers, Json.Rereads x) ∧
    (World.host.performAll (StorageStep.makeParent ⟨"r.json"⟩)).run start = (.ok (), start) ∧
    start.files.IsFilePlace ⟨"r.json"⟩ "r.json" ["r.json"] ∧
    ((save World.host ⟨"r.json"⟩ standard).run start).1 =
      .error (.storage "Is a directory (os error 21)") ∧
    ((load World.host ⟨"r.json"⟩).run left).1 =
      .error (.storage "No such file or directory (os error 2)") :=
  ⟨rfl, rfl, rfl, by decide +kernel, rfl, ⟨by decide, by decide, rfl, nofun⟩, rfl, rfl⟩

end DomainColoring.Settings
