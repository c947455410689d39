import DomainColoring.CommandLine.Run
import DomainColoring.Proofs.Storage.FileTree
import DomainColoring.Proofs.Storage.Path

/-!
# What commands plan

A command has as many plots as it asks for, each with a file of its own. It is refused before
anything happens if its expression or the area that all its plots share is wrong; the areas of
exponentials are looked at one by one, when it is their turn.
-/

namespace DomainColoring

/-- Two paths lead to different places, if they lead anywhere. -/
def FileTree.Apart (t : FileTree) (first second : Path) : Prop :=
  ∀ place, t.locate first = .ok place → t.locate second ≠ .ok place

theorem FileTree.SameDirectories.apart {t t' : FileTree} {first second : Path}
    (same : t.SameDirectories t') (apart : t.Apart first second) : t'.Apart first second :=
  fun place leads leadsToo => apart place (same.locate_iff.mpr leads) (same.locate_iff.mpr leadsToo)

namespace CommandLine

variable {directory : Path} {what : String} {count : UInt64} {s : Settings} {c : Command}
  {plan : Plan} {error : PlotError}

/-- The files of pictures in a directory. -/
def pictureFiles (directory : Path) (stems : List String) : List Path :=
  stems.map fun stem => directory.join (stem ++ ".png")

/-- What stands in front of the ending in the names of the files of a series. -/
def numberedStems (what : String) (count : UInt64) : List String :=
  (List.range count.toNat).map fun index => what ++ toString index

namespace Command

/-- The number of plots that a command asks for. -/
def numberOfPlots : Command → Nat
  | func .. => 1
  | pows _ _ count _ _ => count.toNat
  | exps _ _ count _ => count.toNat
  | examples .. => 6
  | configSchema => 0

/-- The files of the plots of a command, from the first index on. -/
def files : Command → List Path
  | func _ _ _ _ _ file => [⟨file⟩]
  | pows _ _ count _ directory => pictureFiles ⟨directory⟩ (numberedStems "pow" count)
  | exps _ _ count directory => pictureFiles ⟨directory⟩ (numberedStems "exp" count)
  | examples _ directory => pictureFiles ⟨directory⟩ (elementaryFunctions.map (·.1))
  | configSchema => []

/-- What is wrong with a command from the start. -/
inductive Refused : Command → PlotError → Prop where
  | area {expression left right bottom top file error}
      (invalid : Area.make ⟨left, bottom⟩ ⟨right, top⟩ = .error error) :
      Refused (func expression left right bottom top file) error
  | expression {expression left right bottom top file area fault}
      (valid : Area.make ⟨left, bottom⟩ ⟨right, top⟩ = .ok area)
      (unread : NamedMap.read expression.toList = .error fault) :
      Refused (func expression left right bottom top file) (.expression fault.message fault.span)
  | sizeOfPowers {origin step count areaSize directory error}
      (invalid : Area.centered areaSize = .error error) :
      Refused (pows origin step count areaSize directory) error
  | sizeOfExamples {areaSize directory error} (invalid : Area.centered areaSize = .error error) :
      Refused (examples areaSize directory) error

end Command

theorem isName_picture {stem : String} (whole : '/' ∉ stem.toList) :
    Path.IsName (stem ++ ".png") ∧ stem ++ ".png" ≠ ".." :=
  Path.isName_append (by simpa using whole) (by rfl) (show 'g' ≠ '.' by decide)

/-- Pictures of different names in a directory lie in different places. -/
theorem apart_pictureFiles {stems : List String} (different : stems.Nodup)
    (whole : ∀ stem ∈ stems, '/' ∉ stem.toList) (t : FileTree) :
    (pictureFiles directory stems).Pairwise t.Apart := by
  refine List.Pairwise.map _ (fun _ _ given => given) (different.imp_of_mem ?_)
  intro first second firstMember secondMember unequal place leads leadsToo
  obtain ⟨firstIsName, noWayUp⟩ := isName_picture (whole first firstMember)
  obtain ⟨secondIsName, noWayUp'⟩ := isName_picture (whole second secondMember)
  obtain ⟨-, -, -, -, before, -, -, there⟩ :=
    (FileTree.locate_entry_iff (Path.entryName?_join firstIsName noWayUp)).mp leads
  obtain ⟨-, -, -, -, before', -, -, there'⟩ :=
    (FileTree.locate_entry_iff (Path.entryName?_join secondIsName noWayUp')).mp leadsToo
  obtain ⟨-, sameName⟩ := List.append_inj' (there.symm.trans there') rfl
  have sameLetters := congrArg String.toList (List.cons.inj sameName).1
  rw [String.toList_append, String.toList_append] at sameLetters
  exact unequal (String.toList_inj.mp (List.append_cancel_right sameLetters))

theorem nodup_pictureFiles {stems : List String} (different : stems.Nodup)
    (whole : ∀ stem ∈ stems, '/' ∉ stem.toList) : (pictureFiles directory stems).Nodup := by
  refine List.Nodup.map_on ?_ different
  intro first firstMember second secondMember same
  obtain ⟨firstIsName, noWayUp⟩ := isName_picture (whole first firstMember)
  obtain ⟨secondIsName, noWayUp'⟩ := isName_picture (whole second secondMember)
  have sameName := congrArg Path.entryName? same
  rw [Path.entryName?_join firstIsName noWayUp, Path.entryName?_join secondIsName noWayUp']
    at sameName
  have sameLetters := congrArg String.toList (Option.some.inj sameName)
  rw [String.toList_append, String.toList_append] at sameLetters
  exact String.toList_inj.mp (List.append_cancel_right sameLetters)

theorem nodup_numberedStems (what : String) (count : UInt64) :
    (numberedStems what count).Nodup := by
  refine List.Nodup.map (fun first second same => ?_) List.nodup_range
  have sameLetters := congrArg String.toList same
  rw [String.toList_append, String.toList_append] at sameLetters
  exact Nat.repr_inj.mp (String.toList_inj.mp (List.append_cancel_left sameLetters))

theorem slash_not_mem_numberedStems (whole : '/' ∉ what.toList) {stem : String}
    (member : stem ∈ numberedStems what count) : '/' ∉ stem.toList := by
  obtain ⟨index, -, rfl⟩ := List.mem_map.mp member
  rw [String.toList_append, List.mem_append]
  rintro (slash | slash)
  · exact whole slash
  · change '/' ∈ (Nat.repr index).toList at slash
    rw [Nat.toList_repr] at slash
    exact absurd (Nat.isDigit_of_mem_toDigits (by decide) (by decide) slash) (by decide)

namespace Command

theorem length_files (c : Command) : c.files.length = c.numberOfPlots := by
  cases c with
  | func => rfl
  | pows => simp [files, pictureFiles, numberedStems, numberOfPlots]
  | exps => simp [files, pictureFiles, numberedStems, numberOfPlots]
  | examples => rfl
  | configSchema => rfl

/-- There is one file, or all lie in one directory and are called differently. -/
theorem files_cases (c : Command) :
    (∃ file, c.files = [file]) ∨
      ∃ directory stems, c.files = pictureFiles directory stems ∧ stems.Nodup ∧
        ∀ stem ∈ stems, '/' ∉ stem.toList := by
  cases c with
  | func => exact .inl ⟨_, rfl⟩
  | pows =>
    exact .inr ⟨_, _, rfl, nodup_numberedStems _ _,
      fun _ => slash_not_mem_numberedStems (by decide)⟩
  | exps =>
    exact .inr ⟨_, _, rfl, nodup_numberedStems _ _,
      fun _ => slash_not_mem_numberedStems (by decide)⟩
  | examples => exact .inr ⟨_, _, rfl, by decide, by decide⟩
  | configSchema => exact .inr ⟨⟨""⟩, [], rfl, List.nodup_nil, nofun⟩

theorem nodup_files (c : Command) : c.files.Nodup := by
  obtain ⟨file, single⟩ | ⟨directory, stems, shape, different, whole⟩ := c.files_cases
  · exact single ▸ List.nodup_singleton file
  · exact shape ▸ nodup_pictureFiles different whole

/-- No two plots of a command lie in the same place. -/
theorem apart_files (c : Command) (t : FileTree) : c.files.Pairwise t.Apart := by
  obtain ⟨file, single⟩ | ⟨directory, stems, shape, different, whole⟩ := c.files_cases
  · exact single ▸ List.pairwise_singleton _ file
  · exact shape ▸ apart_pictureFiles different whole t

/-- A command without a plan is one that something was wrong with from the start. -/
theorem plan_eq_error_iff : c.plan s = .error error ↔ c.Refused error := by
  constructor
  · intro unplanned
    cases c with
    | func =>
      rcases Outcome.bind_eq_error_iff.mp unplanned with invalid | ⟨area, valid, unplanned⟩
      · exact .area invalid
      · rcases Outcome.bind_eq_error_iff.mp unplanned with reported | ⟨function, read, planned⟩
        · obtain ⟨fault, unread, rfl⟩ := Outcome.mapError_eq_error_iff.mp reported
          exact .expression valid unread
        · exact absurd planned Outcome.pure_ne_error
    | pows =>
      rcases Outcome.bind_eq_error_iff.mp unplanned with invalid | ⟨area, valid, planned⟩
      · exact .sizeOfPowers invalid
      · exact absurd planned Outcome.pure_ne_error
    | exps => exact absurd unplanned Outcome.pure_ne_error
    | examples =>
      rcases Outcome.bind_eq_error_iff.mp unplanned with invalid | ⟨area, valid, planned⟩
      · exact .sizeOfExamples invalid
      · exact absurd planned Outcome.pure_ne_error
    | configSchema => cases unplanned
  · rintro (invalid | ⟨valid, unread⟩ | invalid | invalid)
    · exact Outcome.bind_eq_error_iff.mpr (.inl invalid)
    · refine Outcome.bind_eq_error_iff.mpr (.inr ⟨_, valid, ?_⟩)
      exact Outcome.bind_eq_error_iff.mpr
        (.inl (Outcome.mapError_eq_error_iff.mpr ⟨_, unread, rfl⟩))
    · exact Outcome.bind_eq_error_iff.mpr (.inl invalid)
    · exact Outcome.bind_eq_error_iff.mpr (.inl invalid)

theorem files_of_plan (planned : c.plan s = .ok plan) : plan.tasks.map (·.file) = c.files := by
  cases c with
  | func =>
    obtain ⟨area, -, planned⟩ := Outcome.bind_eq_ok_iff.mp planned
    obtain ⟨function, -, planned⟩ := Outcome.bind_eq_ok_iff.mp planned
    cases planned
    rfl
  | pows =>
    obtain ⟨area, -, planned⟩ := Outcome.bind_eq_ok_iff.mp planned
    cases planned
    simp [files, pictureFiles, numberedStems, series]
  | exps =>
    cases planned
    simp [files, pictureFiles, numberedStems, series]
  | examples =>
    obtain ⟨area, -, planned⟩ := Outcome.bind_eq_ok_iff.mp planned
    cases planned
    simp [files, pictureFiles]
  | configSchema =>
    cases planned
    rfl

end Command
end CommandLine
end DomainColoring
