import DomainColoring.Proofs.Storage.Host
import DomainColoring.Proofs.Storage.Path

/-!
# Replacing a file by way of a sibling

A file is replaced by filling a sibling and moving it there. All that can stand in the way in a file
tree, once the directory is there and the file is none itself, is the sibling: its name may be too
long, or it may be a directory. A host may have other reasons to refuse a step, but none can do
without the room for the sibling.
-/

namespace DomainColoring

variable {path : Path} {name : String} {t t' : FileTree} {place : List String}

namespace Path

/-- The sibling that a file is written to at first. -/
def sibling (p : Path) : Path :=
  p.withFileName (p.fileName?.getD "" ++ ".tmp")

theorem fileName?_of_entryName? (named : path.entryName? = some name) :
    path.fileName? = some name := by
  unfold entryName? at named
  split at named
  · cases named
  · exact named

/-- The last name of a path that has a file name leads neither up nor nowhere. -/
theorem names_of_fileName? (named : path.fileName? = some name) :
    path.names = path.names.dropLast ++ [name] ∧ name ≠ ".." := by
  obtain ⟨last, noWayUp⟩ := Option.filter_eq_some_iff.mp named
  obtain ⟨front, shape⟩ := List.getLast?_eq_some_iff.mp last
  refine ⟨?_, by simpa using noWayUp⟩
  rw [shape, List.dropLast_concat]

theorem mem_names_of_fileName? (named : path.fileName? = some name) : name ∈ path.names := by
  rw [(names_of_fileName? named).1]
  exact List.mem_append_right _ (List.mem_singleton_self name)

theorem sibling_eq (named : path.fileName? = some name) :
    path.sibling = ofNames path.isAbsolute (path.names.dropLast ++ [name ++ ".tmp"]) := by
  rw [sibling, withFileName, named]
  rfl

theorem isName_sibling (named : path.fileName? = some name) :
    IsName (name ++ ".tmp") ∧ name ++ ".tmp" ≠ ".." := by
  have whole := (isName_of_mem (mem_names_of_fileName? named)).whole
  exact isName_append (by simpa using whole) (by rfl) (show 'p' ≠ '.' by decide)

theorem areNames_sibling (named : path.fileName? = some name) :
    ∀ other ∈ path.names.dropLast ++ [name ++ ".tmp"], IsName other := by
  intro other member
  rcases List.mem_append.mp member with before | last
  · exact isName_of_mem (List.mem_of_mem_dropLast before)
  · rw [List.mem_singleton.mp last]
    exact (isName_sibling named).1

theorem names_sibling (named : path.fileName? = some name) :
    path.sibling.names = path.names.dropLast ++ [name ++ ".tmp"] := by
  rw [sibling_eq named, names_ofNames (areNames_sibling named)]

theorem entryName?_sibling (named : path.fileName? = some name) :
    path.sibling.entryName? = some (name ++ ".tmp") := by
  obtain ⟨isName, noWayUp⟩ := isName_sibling named
  have segments : (ofNames path.isAbsolute _).segments = _ :=
    segments_ofNames (areNames_sibling named)
  rw [← sibling_eq named, List.map_append, List.map_singleton] at segments
  exact entryName?_of_segments segments isName noWayUp

theorem endsInSlash_sibling (named : path.fileName? = some name) :
    path.sibling.endsInSlash = false := by
  rw [sibling_eq named, endsInSlash_ofNames (isName_sibling named).1]

/-- The sibling is written with the characters of the path and its own ending. -/
theorem nul_not_mem_sibling (named : path.fileName? = some name)
    (noNul : '\x00' ∉ path.text.toList) : '\x00' ∉ path.sibling.text.toList := by
  intro nul
  rw [sibling_eq named] at nul
  obtain ⟨other, isListed, inside⟩ := (mem_text_ofNames nul).resolve_left (by decide)
  rcases List.mem_append.mp isListed with before | last
  · exact noNul (mem_text_of_mem_names (List.mem_of_mem_dropLast before) inside)
  · rw [List.mem_singleton.mp last, String.toList_append, List.mem_append] at inside
    exact noNul (mem_text_of_mem_names (mem_names_of_fileName? named)
      (inside.resolve_right (by decide)))

end Path

namespace FileTree

/-- A path leads to a place for a file: it names an entry of a directory that is there, and the
entry is no directory. -/
structure IsFilePlace (t : FileTree) (path : Path) (name : String) (place : List String) :
    Prop where
  named : path.entryName? = some name
  noSlash : path.endsInSlash = false
  leads : t.locate path = .ok place
  noDirectory : t.node? place ≠ some .directory

/-- A sibling can be written beside a place, if its name is not too long and it is no directory. -/
structure HasRoomBeside (t : FileTree) (name : String) (place : List String) : Prop where
  short : (name ++ ".tmp").utf8ByteSize ≤ nameLimit
  noDirectory : t.node? (place.dropLast ++ [name ++ ".tmp"]) ≠ some .directory

/-- The sibling lies beside the place that the path leads to. -/
theorem locate_sibling {other : List String} (isPlace : t.IsFilePlace path name place) :
    t.locate path.sibling = .ok other ↔
      (name ++ ".tmp").utf8ByteSize ≤ nameLimit ∧ other = place.dropLast ++ [name ++ ".tmp"] := by
  obtain ⟨entryNamed, -, leads, -⟩ := isPlace
  obtain ⟨noNul, -, start, begins, directory, before, -, rfl⟩ :=
    (locate_entry_iff entryNamed).mp leads
  have named := Path.fileName?_of_entryName? entryNamed
  have written : path.sibling.text.isEmpty = false := by
    rw [Path.sibling_eq named, Path.isEmpty_ofNames (Path.isName_sibling named).1]
  have sameRoot : path.sibling.isAbsolute = path.isAbsolute := by
    rw [Path.sibling_eq named, Path.isAbsolute_ofNames (Path.areNames_sibling named)]
  rw [locate_entry_iff (Path.entryName?_sibling named), Path.names_sibling named,
    List.dropLast_concat, List.dropLast_concat, sameRoot, begins]
  simp [Path.nul_not_mem_sibling named noNul, written, before]

/-- If there is room beside the place, the sibling can be created, filled and moved there. -/
theorem done_replaceFile (isPlace : t.IsFilePlace path name place)
    (room : t.HasRoomBeside name place) (content : FileContent) :
    ∃ replaced, StorageStep.Done (StorageStep.replaceFile path content) t replaced := by
  let beside := place.dropLast ++ [name ++ ".tmp"]
  let created := t.set beside (.file (.text []))
  let filled := created.set beside (.file content)
  have inside : beside ≠ [] := ne_nil_of_node? room.noDirectory
  have siblingLeads : t.locate path.sibling = .ok beside :=
    (locate_sibling isPlace).mpr ⟨room.short, rfl⟩
  have isEmpty : created.node? beside = some (.file (.text [])) := by
    rw [node?_set t inside, if_pos rfl]
  have isFilled : filled.node? beside = some (.file content) := by
    rw [node?_set created inside, if_pos rfl]
  have sameCreated : t.SameDirectories created := sameDirectories_set room.noDirectory _
  have sameFilled : t.SameDirectories filled :=
    sameCreated.trans (sameDirectories_set (by rw [isEmpty]; nofun) _)
  have creates : t.createFile path.sibling = .ok created := createFile_eq_ok_iff.mpr
    ⟨beside, siblingLeads, Path.endsInSlash_sibling (Path.fileName?_of_entryName? isPlace.named),
      room.noDirectory, rfl⟩
  have fills : created.fill path.sibling content = .ok filled := fill_eq_ok_iff.mpr
    ⟨beside, .text [], sameCreated.locate_iff.mp siblingLeads, isEmpty, rfl⟩
  have moves : filled.rename path.sibling path =
      .ok ((filled.erase beside).set place (.file content)) := by
    refine rename_eq_ok_iff.mpr ⟨beside, place, content, sameFilled.locate_iff.mp siblingLeads,
      sameFilled.locate_iff.mp isPlace.leads, ?_, isFilled, isPlace.noSlash, ?_, rfl⟩
    · rw [isPlace.named, Option.isSome_some]
    · exact fun isDirectory =>
        isPlace.noDirectory ((sameFilled.isDirectory_iff place).mpr isDirectory)
  exact ⟨_, created, settle_eq_ok_iff.mpr creates, filled, settle_eq_ok_iff.mpr fills, filled, rfl,
    _, settle_eq_ok_iff.mpr moves, rfl⟩

end FileTree

namespace Host.Honest

variable {State : Type} {h : Host (StateM State)} {files : State → FileTree}
  {reports : State → List String} (honest : h.Honest files reports) {before after : State}
  {content : FileContent}
include honest

/-- A file can be replaced only if there is room for the sibling beside its place. -/
theorem room_of_replaceFile (isPlace : (files before).IsFilePlace path name place)
    (replaced : (h.performAll (StorageStep.replaceFile path content)).run before =
      (.ok (), after)) : (files before).HasRoomBeside name place := by
  obtain ⟨created, creates, -⟩ := Host.performAll_cons_eq_ok_iff.mp replaced
  obtain ⟨beside, leads, -, noDirectory, -⟩ := FileTree.createFile_eq_ok_iff.mp
    (FileTree.settle_eq_ok_iff.mp (honest.done _ _ _ creates))
  obtain ⟨short, rfl⟩ := (FileTree.locate_sibling isPlace).mp leads
  exact ⟨short, noDirectory⟩

/-- If nothing else stands in the way, a file can be replaced once there is room. -/
theorem replaceFile_of_room (unhindered : h.Unhindered files)
    (isPlace : (files before).IsFilePlace path name place)
    (room : (files before).HasRoomBeside name place) (content : FileContent) :
    ∃ after, (h.performAll (StorageStep.replaceFile path content)).run before =
      (.ok (), after) := by
  obtain ⟨replaced, done⟩ := FileTree.done_replaceFile isPlace room content
  obtain ⟨after, performed, -⟩ := honest.performAll_of_applies unhindered done
  exact ⟨after, performed⟩

end Host.Honest
end DomainColoring
