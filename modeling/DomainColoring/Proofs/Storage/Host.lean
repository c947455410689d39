import DomainColoring.Proofs.Storage.FileTree
import DomainColoring.Storage.Step

/-!
# Hosts that do what they report

A host may fail at any step, for reasons of its own: permissions, a path that is too long as a
whole, a full disk. It is honest if a step that it reports as done had its full effect on a file
tree, and one that it reports as failed touched nothing but what the step is about. Nothing is said
of when steps fail, unless the host is unhindered.

The effects are those on a tree, in which every file has one name and no name stands for another
path. Nothing is claimed of hosts with hard or symbolic links among the files that a program
touches: there a step can change a file under a name that it is not about.
-/

namespace DomainColoring

variable {State : Type} {h : Host (StateM State)} {files : State → FileTree}
  {reports : State → List String} {before after : State} {t t' : FileTree} {path : Path}

namespace StorageStep

/-- What a failed step may leave behind: directories that were made before one could not be made,
or a file that does not hold all that it should. -/
def MayLeave (t t' : FileTree) : StorageStep → Prop
  | makeDirectories _ => t.Extends t'
  | createFile path => FileTree.ChangesOnly [path] t t'
  | write path _ => FileTree.ChangesOnly [path] t t'
  | sync _ => FileTree.ChangesOnly [] t t'
  | rename _ _ => FileTree.ChangesOnly [] t t'

/-- Steps that were all done lead from one tree to another. -/
def Done : List StorageStep → FileTree → FileTree → Prop
  | [], t, t' => t' = t
  | step :: rest, t, t' => ∃ between, step.apply t = (between, .ok ()) ∧ Done rest between t'

/-- The file that a step creates or writes. -/
def written? : StorageStep → Option Path
  | createFile path => some path
  | write path _ => some path
  | _ => none

end StorageStep

/-- A host that does what it reports, where `files` and `reports` tell from its state which files
there are and what was reported. -/
structure Host.Honest (h : Host (StateM State)) (files : State → FileTree)
    (reports : State → List String) : Prop where
  readsOnly : ∀ path state, files ((h.readText path).run state).2 = files state ∧
    reports ((h.readText path).run state).2 = reports state
  done : ∀ step before after, (h.perform step).run before = (.ok (), after) →
    step.apply (files before) = (files after, .ok ())
  failed : ∀ step before after error, (h.perform step).run before = (.error error, after) →
    step.MayLeave (files before) (files after)
  silent : ∀ step state, reports ((h.perform step).run state).2 = reports state
  threadsOnly : ∀ count state, files ((h.startThreads count).run state).2 = files state ∧
    reports ((h.startThreads count).run state).2 = reports state
  reported : ∀ line state, files ((h.report line).run state).2 = files state ∧
    reports ((h.report line).run state).2 = reports state ++ [line]
  clockOnly : ∀ state, files (h.clock.run state).2 = files state ∧
    reports (h.clock.run state).2 = reports state

/-- A file that holds a text is read as this text. -/
def Host.ReadsBack (h : Host (StateM State)) (files : State → FileTree) : Prop :=
  ∀ path state chars, (files state).readText path = .ok chars →
    ((h.readText path).run state).1 = .ok chars

/-- A host that does every step that can be done in its file tree: nothing but files and directories
stands in its way. -/
def Host.Unhindered (h : Host (StateM State)) (files : State → FileTree) : Prop :=
  ∀ step state t, step.apply (files state) = (t, .ok ()) →
    ∃ next, (h.perform step).run state = (.ok (), next)

theorem FileTree.settle_eq_ok_iff {attempt : Except StorageError FileTree} :
    t.settle attempt = (t', .ok ()) ↔ attempt = .ok t' := by
  cases attempt <;> simp [settle]

theorem FileTree.settle_of_error {attempt : Except StorageError FileTree} {error : StorageError}
    (settled : t.settle attempt = (t', .error error)) : t' = t := by
  cases attempt with
  | ok changed => cases settled
  | error refused => exact (congrArg Prod.fst settled).symm

namespace StorageStep

variable {step : StorageStep}

theorem mayLeave_of_refused {error : StorageError} (refused : step.apply t = (t', .error error)) :
    step.MayLeave t t' := by
  cases step with
  | makeDirectories path =>
    have extended := t.extends_makeDirectories path
    rwa [show t.makeDirectories path = _ from refused] at extended
  | createFile path => exact FileTree.settle_of_error refused ▸ .refl _ t
  | write path content => exact FileTree.settle_of_error refused ▸ .refl _ t
  | sync path => cases refused
  | rename source target => exact FileTree.settle_of_error refused ▸ .refl _ t

/-- A step that created or wrote a file touched nothing else. -/
theorem changesOnly_of_done (writes : step.written? = some path)
    (done : step.apply t = (t', .ok ())) : FileTree.ChangesOnly [path] t t' := by
  cases step with
  | createFile file =>
    cases writes
    obtain ⟨place, leads, -, noDirectory, rfl⟩ :=
      FileTree.createFile_eq_ok_iff.mp (FileTree.settle_eq_ok_iff.mp done)
    exact FileTree.changesOnly_set leads noDirectory
  | write file content =>
    cases writes
    obtain ⟨place, old, leads, isFile, rfl⟩ :=
      FileTree.fill_eq_ok_iff.mp (FileTree.settle_eq_ok_iff.mp done)
    exact FileTree.changesOnly_set leads (by rw [isFile]; nofun)
  | makeDirectories path => cases writes
  | sync path => cases writes
  | rename source target => cases writes

end StorageStep

/-- The host of a file tree is honest. -/
theorem World.host_honest : World.host.Honest World.files World.reports where
  readsOnly _ _ := ⟨rfl, rfl⟩
  done step before after ran := by
    have outcome : (step.apply before.files).2 = .ok () := congrArg Prod.fst ran
    have left : (step.apply before.files).1 = after.files := congrArg (fun r => r.2.files) ran
    exact Prod.ext left outcome
  failed step before after error ran := by
    have outcome : (step.apply before.files).2 = .error error := congrArg Prod.fst ran
    have left : (step.apply before.files).1 = after.files := congrArg (fun r => r.2.files) ran
    exact StorageStep.mayLeave_of_refused (Prod.ext left outcome)
  silent _ _ := rfl
  threadsOnly _ _ := ⟨rfl, rfl⟩
  reported _ _ := ⟨rfl, rfl⟩
  clockOnly _ := ⟨rfl, rfl⟩

theorem World.host_readsBack : World.host.ReadsBack World.files :=
  fun _ _ _ holds => holds

theorem World.host_unhindered : World.host.Unhindered World.files := by
  intro step world t applies
  refine ⟨{ world with files := t }, ?_⟩
  change ((step.apply world.files).2, { world with files := (step.apply world.files).1 }) = _
  rw [applies]

namespace Host

theorem run_bind {Value Value' : Type} (first : StateM State Value)
    (next : Value → StateM State Value') (state : State) :
    (first >>= next).run state = (next (first.run state).1).run (first.run state).2 :=
  rfl

theorem performAll_run_cons (h : Host (StateM State)) (step : StorageStep)
    (rest : List StorageStep) (state : State) :
    (h.performAll (step :: rest)).run state =
      match (h.perform step).run state with
      | (.ok (), next) => (h.performAll rest).run next
      | (.error error, next) => (.error error, next) := by
  rw [performAll, run_bind]
  rcases (h.perform step).run state with ⟨error | ⟨⟩, next⟩ <;> rfl

/-- One step at a time: steps are done if the first is and then the others are. -/
theorem performAll_cons_eq_ok_iff {step : StorageStep} {rest : List StorageStep} :
    (h.performAll (step :: rest)).run before = (.ok (), after) ↔
      ∃ between, (h.perform step).run before = (.ok (), between) ∧
        (h.performAll rest).run between = (.ok (), after) := by
  rw [performAll_run_cons]
  rcases (h.perform step).run before with ⟨error | ⟨⟩, next⟩
  · exact ⟨nofun, fun ⟨_, done, _⟩ => nomatch done⟩
  · refine ⟨fun rest => ⟨next, rfl, rest⟩, ?_⟩
    rintro ⟨between, done, rest⟩
    cases done
    exact rest

/-- Once some steps are done, the others are left. -/
theorem performAll_append_of_done {first rest : List StorageStep} {between : State}
    (done : (h.performAll first).run before = (.ok (), between)) :
    (h.performAll (first ++ rest)).run before = (h.performAll rest).run between := by
  induction first generalizing before with
  | nil =>
    cases done
    rfl
  | cons step others inductionHypothesis =>
    obtain ⟨next, stepDone, othersDone⟩ := performAll_cons_eq_ok_iff.mp done
    rw [List.cons_append, performAll_run_cons, stepDone]
    exact inductionHypothesis othersDone

namespace Honest

variable (honest : h.Honest files reports)
include honest

/-- An unhindered host does what can be done. -/
theorem perform_of_applies (unhindered : h.Unhindered files) {step : StorageStep}
    (applies : step.apply (files before) = (t, .ok ())) :
    ∃ after, (h.perform step).run before = (.ok (), after) ∧ files after = t := by
  obtain ⟨after, performed⟩ := unhindered step before t applies
  have done := honest.done step before after performed
  exact ⟨after, performed, congrArg Prod.fst (done.symm.trans applies)⟩

theorem performAll_of_applies (unhindered : h.Unhindered files) {steps : List StorageStep}
    (done : StorageStep.Done steps (files before) t) :
    ∃ after, (h.performAll steps).run before = (.ok (), after) ∧ files after = t := by
  induction steps generalizing before with
  | nil => exact ⟨before, rfl, done.symm⟩
  | cons step rest inductionHypothesis =>
    obtain ⟨between, applies, others⟩ := done
    obtain ⟨next, performed, rfl⟩ := honest.perform_of_applies unhindered applies
    obtain ⟨after, othersPerformed, ends⟩ := inductionHypothesis others
    exact ⟨after, performAll_cons_eq_ok_iff.mpr ⟨next, performed, othersPerformed⟩, ends⟩

theorem performAll_silent (steps : List StorageStep) (state : State) :
    reports ((h.performAll steps).run state).2 = reports state := by
  induction steps generalizing state with
  | nil => rfl
  | cons step rest inductionHypothesis =>
    have silent := honest.silent step state
    rw [performAll_run_cons]
    rcases ran : (h.perform step).run state with ⟨error | ⟨⟩, next⟩ <;> rw [ran] at silent
    · exact silent
    · exact (inductionHypothesis next).trans silent

/-- A step that creates or writes a file touches nothing else, done or not. -/
theorem changesOnly_of_perform {step : StorageStep} (writes : step.written? = some path)
    (state : State) :
    FileTree.ChangesOnly [path] (files state) (files ((h.perform step).run state).2) := by
  rcases ran : (h.perform step).run state with ⟨error | ⟨⟩, next⟩
  · have left := honest.failed step state next error ran
    cases step <;> cases writes <;> exact left
  · exact StorageStep.changesOnly_of_done writes (honest.done step state next ran)

/-- Steps that create or write one file touch nothing else, however far they get. -/
theorem changesOnly_of_performAll {steps : List StorageStep}
    (write : ∀ step ∈ steps, step.written? = some path) (state : State) :
    FileTree.ChangesOnly [path] (files state) (files ((h.performAll steps).run state).2) := by
  induction steps generalizing state with
  | nil => exact .refl _ _
  | cons step rest inductionHypothesis =>
    have first := honest.changesOnly_of_perform (write step List.mem_cons_self) state
    rw [performAll_run_cons]
    rcases ran : (h.perform step).run state with ⟨error | ⟨⟩, next⟩ <;> rw [ran] at first
    · exact first
    · exact first.trans
        (inductionHypothesis (fun step member => write step (List.mem_cons_of_mem _ member)) next)

/-- Making a directory leaves all files alone, done or not. -/
theorem extends_of_perform (path : Path) (state : State) :
    (files state).Extends (files ((h.perform (.makeDirectories path)).run state).2) := by
  rcases ran : (h.perform (.makeDirectories path)).run state with ⟨error | ⟨⟩, next⟩
  · exact honest.failed _ state next error ran
  · have extended := (files state).extends_makeDirectories path
    rwa [show (files state).makeDirectories path = _ from honest.done _ state next ran] at extended

theorem extends_of_performAll (paths : List Path) (state : State) :
    (files state).Extends
      (files ((h.performAll (paths.map .makeDirectories)).run state).2) := by
  induction paths generalizing state with
  | nil => exact .refl _
  | cons path rest inductionHypothesis =>
    have first := honest.extends_of_perform path state
    rw [List.map_cons, performAll_run_cons]
    rcases ran : (h.perform (.makeDirectories path)).run state with ⟨error | ⟨⟩, next⟩ <;>
      rw [ran] at first
    · exact first
    · exact first.trans (inductionHypothesis next)

theorem report_forM {Line : Type} (lines : List Line) (text : Line → String) (state : State) :
    files ((lines.forM fun line => h.report (text line)).run state).2 = files state ∧
      reports ((lines.forM fun line => h.report (text line)).run state).2 =
        reports state ++ lines.map text := by
  induction lines generalizing state with
  | nil => exact ⟨rfl, (List.append_nil _).symm⟩
  | cons line rest inductionHypothesis =>
    have first := honest.reported (text line) state
    obtain ⟨sameFiles, added⟩ := inductionHypothesis ((h.report (text line)).run state).2
    rw [List.forM_eq_forM, List.forM_cons, run_bind]
    refine ⟨sameFiles.trans first.1, added.trans ?_⟩
    rw [first.2, List.append_assoc, List.singleton_append, List.map_cons]

end Honest
end Host
end DomainColoring
