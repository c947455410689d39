import DomainColoring.Proofs.CommandLine.Plan
import DomainColoring.Proofs.Storage.Host

/-!
# How far a run gets

The plots of a command are drawn and saved one after another. On a host that does what it reports,
a run that is stopped has saved all plots before the one that stopped it and has touched nothing
that belongs to the plots after it. Such a host may fail at any moment, but it has no links among
its files: with two names of one file, a plot could touch the picture of another.
-/

namespace DomainColoring.CommandLine

variable {State : Type} {h : Host (StateM State)} {files : State → FileTree}
  {reports : State → List String} {before after : State} {s : Settings} {task : Task}
  {tasks : List Task} {t t' : FileTree}

namespace Task

/-- The file of a task holds the complete picture of its plot, and this is its summary. -/
def Saved (s : Settings) (t : FileTree) (task : Task) (summary : Summary) : Prop :=
  ∃ area canvas place elapsed, task.draw s = .ok (area, canvas) ∧ t.locate task.file = .ok place ∧
    t.node? place = some (.file (.picture canvas)) ∧ summary = task.summary s area elapsed

/-- The plot of a task cannot be drawn, for which no file is touched, or it cannot be saved, for
which no file but its own is touched. -/
inductive Fails (h : Host (StateM State)) (files : State → FileTree) (s : Settings) (task : Task)
    (before after : State) : PlotError → Prop where
  | undrawn {error} (refused : task.draw s = .error error)
      (untouched : files after = files before) : Fails h files s task before after error
  | unsaved {area canvas started fault} (drawn : task.draw s = .ok (area, canvas))
      (untouched : files started = files before)
      (refused : (h.performAll (saveSteps task.file canvas)).run started = (.error fault, after))
      (touched : FileTree.ChangesOnly [task.file] (files before) (files after)) :
      Fails h files s task before after (.picture fault.message)

/-- What is reported of a plot that is drawn and saved. -/
def reportsWhenSaved (task : Task) : List String :=
  [task.announcement, "saved " ++ task.file.text]

theorem Saved.file_eq {summary : Summary} (saved : task.Saved s t summary) :
    summary.file = task.file := by
  obtain ⟨area, canvas, place, elapsed, -, -, -, rfl⟩ := saved
  rfl

theorem files_eq_of_saved {summaries : List Summary}
    (saved : List.Forall₂ (Saved s t) tasks summaries) :
    summaries.map (·.file) = tasks.map (·.file) := by
  induction saved with
  | nil => rfl
  | cons first _ inductionHypothesis =>
    rw [List.map_cons, List.map_cons, first.file_eq, inductionHypothesis]

theorem Fails.changesOnly {error : PlotError} (fails : task.Fails h files s before after error) :
    FileTree.ChangesOnly [task.file] (files before) (files after) := by
  cases fails with
  | undrawn refused untouched => exact untouched ▸ .refl _ _
  | unsaved drawn untouched refused touched => exact touched

/-- A picture stays while others are saved elsewhere. -/
theorem Saved.of_changesOnly {summary : Summary} {paths : List Path}
    (saved : task.Saved s t summary) (changes : FileTree.ChangesOnly paths t t')
    (apart : ∀ path ∈ paths, t.Apart task.file path) : task.Saved s t' summary := by
  obtain ⟨area, canvas, place, elapsed, drawn, leads, holds, same⟩ := saved
  refine ⟨area, canvas, place, elapsed, drawn, changes.directories.locate_iff.mp leads, ?_, same⟩
  rw [changes.elsewhere place fun path member => apart path member place leads, holds]

theorem saveSteps_write (file : Path) (canvas : Raster) :
    ∀ step ∈ saveSteps file canvas, step.written? = some file := by
  simp [saveSteps, StorageStep.written?]

/-- A picture whose saving was reported as done is in its place. -/
theorem holds_of_saved (honest : h.Honest files reports) {file : Path} {canvas : Raster}
    (saved : (h.performAll (saveSteps file canvas)).run before = (.ok (), after)) :
    ∃ place, (files after).locate file = .ok place ∧
      (files after).node? place = some (.file (.picture canvas)) := by
  obtain ⟨created, -, saved⟩ := Host.performAll_cons_eq_ok_iff.mp saved
  obtain ⟨filled, wrote, ended⟩ := Host.performAll_cons_eq_ok_iff.mp saved
  have applied := honest.done _ created filled wrote
  cases ended
  obtain ⟨place, old, leads, isFile, rewritten⟩ :=
    FileTree.fill_eq_ok_iff.mp (FileTree.settle_eq_ok_iff.mp applied)
  have noDirectory : (files created).node? place ≠ some .directory := by
    rw [isFile]
    nofun
  refine ⟨place, ?_, ?_⟩
  · rw [rewritten]
    exact (FileTree.sameDirectories_set noDirectory _).locate_iff.mp leads
  · rw [rewritten, FileTree.node?_set _ (FileTree.ne_nil_of_node? noDirectory), if_pos rfl]

theorem run_run (h : Host (StateM State)) (s : Settings) (task : Task) (state : State) :
    (task.run h s).run state =
      let started := h.clock.run ((h.report task.announcement).run state).2
      match task.draw s with
      | .error error => (.error error, started.2)
      | .ok (area, canvas) =>
        match (h.performAll (saveSteps task.file canvas)).run started.2 with
        | (.error fault, next) => (.error (.picture fault.message), next)
        | (.ok (), next) =>
          let finished := h.clock.run ((h.report ("saved " ++ task.file.text)).run next).2
          (.ok (task.summary s area (finished.1 - started.1)), finished.2) := by
  extract_lets started
  rw [Task.run, Host.run_bind, Host.run_bind]
  cases task.draw s with
  | error error => rfl
  | ok drawn =>
    obtain ⟨area, canvas⟩ := drawn
    dsimp only
    rw [Host.run_bind]
    rcases (h.performAll (saveSteps task.file canvas)).run started.2 with ⟨fault | ⟨⟩, next⟩ <;> rfl

/-- A task either fails, and is reported as begun, or its picture is saved, and is reported so. -/
theorem run_cases (honest : h.Honest files reports) {outcome : Except PlotError Summary}
    (ran : (task.run h s).run before = (outcome, after)) :
    (∃ error, outcome = .error error ∧ task.Fails h files s before after error ∧
      reports after = reports before ++ [task.announcement]) ∨
    ∃ summary, outcome = .ok summary ∧ task.Saved s (files after) summary ∧
      FileTree.ChangesOnly [task.file] (files before) (files after) ∧
      reports after = reports before ++ task.reportsWhenSaved := by
  have announced := honest.reported task.announcement before
  have clocked := honest.clockOnly ((h.report task.announcement).run before).2
  rw [run_run] at ran
  revert ran
  generalize h.clock.run ((h.report task.announcement).run before).2 = started at clocked ⊢
  rw [announced.1, announced.2] at clocked
  intro ran
  cases drawn : task.draw s with
  | error error =>
    rw [drawn] at ran
    cases ran
    exact .inl ⟨error, rfl, .undrawn drawn clocked.1, clocked.2⟩
  | ok made =>
    obtain ⟨area, canvas⟩ := made
    have touched := honest.changesOnly_of_performAll (saveSteps_write task.file canvas) started.2
    have silent := honest.performAll_silent (saveSteps task.file canvas) started.2
    rw [clocked.1] at touched
    rw [clocked.2] at silent
    rw [drawn] at ran
    rcases performed : (h.performAll (saveSteps task.file canvas)).run started.2
      with ⟨fault | ⟨⟩, next⟩ <;> simp only [performed] at ran touched silent
    · cases ran
      exact .inl ⟨_, rfl, .unsaved drawn clocked.1 performed touched, silent⟩
    · obtain ⟨place, leads, holds⟩ := holds_of_saved honest performed
      have noted := honest.reported ("saved " ++ task.file.text) next
      have finished := honest.clockOnly ((h.report ("saved " ++ task.file.text)).run next).2
      cases ran
      rw [noted.1, noted.2, silent] at finished
      refine .inr ⟨_, rfl, ⟨area, canvas, place, _, drawn, ?_, ?_, rfl⟩, ?_, ?_⟩
      · rw [finished.1, leads]
      · rw [finished.1, holds]
      · rw [finished.1]
        exact touched
      · rw [finished.2, reportsWhenSaved, List.append_assoc]
        rfl

theorem runAll_run_cons (h : Host (StateM State)) (s : Settings) (task : Task) (rest : List Task)
    (state : State) :
    (runAll h s (task :: rest)).run state =
      match (task.run h s).run state with
      | (.error error, next) => (.error error, next)
      | (.ok summary, next) =>
        match (runAll h s rest).run next with
        | (.error error, last) => (.error error, last)
        | (.ok summaries, last) => (.ok (summary :: summaries), last) := by
  rw [runAll, Host.run_bind]
  rcases (task.run h s).run state with ⟨error | summary, next⟩
  · rfl
  · dsimp only
    rw [Host.run_bind]
    rcases (runAll h s rest).run next with ⟨error | summaries, last⟩ <;> rfl

/-- Tasks with files apart from each other are either all saved, or those before one that fails
are, and those behind it are not begun. -/
theorem runAll_cases (honest : h.Honest files reports)
    (apart : (tasks.map (·.file)).Pairwise (files before).Apart)
    {outcome : Except PlotError (List Summary)}
    (ran : (runAll h s tasks).run before = (outcome, after)) :
    (∃ summaries, outcome = .ok summaries ∧
      List.Forall₂ (Saved s (files after)) tasks summaries ∧
      FileTree.ChangesOnly (tasks.map (·.file)) (files before) (files after) ∧
      reports after = reports before ++ tasks.flatMap reportsWhenSaved) ∨
    ∃ earlier task later summaries between error, tasks = earlier ++ task :: later ∧
      outcome = .error error ∧ List.Forall₂ (Saved s (files after)) earlier summaries ∧
      FileTree.ChangesOnly (earlier.map (·.file)) (files before) (files between) ∧
      task.Fails h files s between after error ∧
      reports after =
        reports before ++ earlier.flatMap reportsWhenSaved ++ [task.announcement] := by
  induction tasks generalizing before outcome with
  | nil =>
    cases ran
    exact .inl ⟨[], rfl, .nil, .refl _ _, by simp⟩
  | cons task rest inductionHypothesis =>
    rw [List.map_cons, List.pairwise_cons] at apart
    obtain ⟨apartFromRest, restApart⟩ := apart
    rw [runAll_run_cons] at ran
    rcases taskRan : (task.run h s).run before with ⟨taskOutcome, next⟩
    rw [taskRan] at ran
    rcases run_cases honest taskRan with
      ⟨error, rfl, fails, reported⟩ | ⟨summary, rfl, saved, touched, reported⟩
    · cases ran
      exact .inr ⟨[], task, rest, [], before, error, rfl, rfl, .nil, .refl _ _, fails,
        by simpa using reported⟩
    · have widen {paths : List Path} {t : FileTree}
          (changes : FileTree.ChangesOnly paths (files next) t) :
          FileTree.ChangesOnly (task.file :: paths) (files before) t :=
        (touched.mono (by simp)).trans (changes.mono (List.subset_cons_self _ _))
      rcases restRan : (runAll h s rest).run next with ⟨restOutcome, last⟩
      simp only [restRan] at ran
      obtain rfl : last = after := by cases restOutcome <;> cases ran <;> rfl
      rcases inductionHypothesis (restApart.imp touched.directories.apart) restRan with
        ⟨summaries, rfl, allSaved, changes, restReported⟩ |
        ⟨earlier, failed, later, summaries, between, error, rfl, rfl, earlierSaved, changes,
          fails, restReported⟩
      · cases ran
        refine .inl ⟨_, rfl, .cons (saved.of_changesOnly changes ?_) allSaved, widen changes, ?_⟩
        · exact fun path member => touched.directories.apart (apartFromRest path member)
        · rw [restReported, reported, List.flatMap_cons, List.append_assoc]
      · cases ran
        refine .inr ⟨task :: earlier, failed, later, summary :: summaries, between, error, rfl, rfl,
          .cons (saved.of_changesOnly
            ((changes.mono (List.subset_append_left _ [failed.file])).trans
              (fails.changesOnly.mono (by simp))) ?_) earlierSaved,
          widen changes, fails, ?_⟩
        · refine fun path member => touched.directories.apart (apartFromRest path ?_)
          rw [List.map_append, List.map_cons]
          rcases List.mem_append.mp member with before | same
          · exact List.mem_append_left _ before
          · rw [List.mem_singleton.mp same]
            exact List.mem_append_right _ List.mem_cons_self
        · simp only [restReported, reported, List.flatMap_cons, List.append_assoc]

end Task

/-- The place that a path leads to holds what it held. -/
def SameFile (t t' : FileTree) (path : Path) : Prop :=
  ∀ place, t.locate path = .ok place → t'.node? place = t.node? place

theorem sameFile_of_changesOnly {paths : List Path} {path : Path}
    (changes : FileTree.ChangesOnly paths t t') (apart : ∀ other ∈ paths, t.Apart other path) :
    SameFile t t' path :=
  fun place leads => changes.elsewhere place fun other member leadsToo =>
    apart other member place leadsToo leads

/-- A run, once it was prepared, was stopped by the plot at an index. The plots before it are saved,
and those behind it were not begun. -/
structure StoppedAt (h : Host (StateM State)) (files : State → FileTree)
    (reports : State → List String) (s : Settings) (tasks : List Task) (index : Nat) (task : Task)
    (error : PlotError) (prepared finish : State) : Prop where
  isTask : tasks[index]? = some task
  fails : ∃ between, task.Fails h files s between finish error
  earlier : ∃ summaries, List.Forall₂ (Task.Saved s (files finish)) (tasks.take index) summaries
  undrawn : ∀ refusal, task.draw s = .error refusal →
    SameFile (files prepared) (files finish) task.file
  later : ∀ other ∈ tasks.drop (index + 1), SameFile (files prepared) (files finish) other.file
  touched : FileTree.ChangesOnly ((tasks.take (index + 1)).map (·.file)) (files prepared)
    (files finish)
  reported : reports finish =
    reports prepared ++ (tasks.take index).flatMap Task.reportsWhenSaved ++ [task.announcement]

/-- All plots of a run are saved, with a summary for each of them in their order. -/
structure Completed (files : State → FileTree) (reports : State → List String) (s : Settings)
    (tasks : List Task) (summaries : List Summary) (json : Bool) (prepared finish : State) :
    Prop where
  saved : List.Forall₂ (Task.Saved s (files finish)) tasks summaries
  touched : FileTree.ChangesOnly (tasks.map (·.file)) (files prepared) (files finish)
  reported : reports finish = reports prepared ++ tasks.flatMap Task.reportsWhenSaved ++
    if json then [] else summaries.map Summary.report

variable {i : Invocation} {start prepared finish : State}

theorem loadOrStandard_readsOnly (honest : h.Honest files reports) (config : Option Path)
    (state : State) :
    files ((Settings.loadOrStandard h config).run state).2 = files state ∧
      reports ((Settings.loadOrStandard h config).run state).2 = reports state := by
  cases config with
  | none => exact ⟨rfl, rfl⟩
  | some path =>
    have reads := honest.readsOnly path state
    rw [Settings.loadOrStandard, Settings.load, Host.run_bind]
    rcases ran : (h.readText path).run state with ⟨error | text, next⟩ <;> rw [ran] at reads <;>
      exact reads

/-- Working out the settings changes nothing. -/
theorem resolveSettings_readsOnly (honest : h.Honest files reports) (i : Invocation)
    (state : State) :
    files ((resolveSettings h i).run state).2 = files state ∧
      reports ((resolveSettings h i).run state).2 = reports state := by
  have reads := loadOrStandard_readsOnly honest (i.config.map Path.mk) state
  rw [resolveSettings, Host.run_bind]
  rcases ran : (Settings.loadOrStandard h (i.config.map Path.mk)).run state
    with ⟨error | settings, next⟩ <;> rw [ran] at reads <;> exact reads

/-- Starting threads changes nothing. -/
theorem startThreads_changesNothing (honest : h.Honest files reports) (s : Settings)
    (state : State) :
    files ((startThreads h s).run state).2 = files state ∧
      reports ((startThreads h s).run state).2 = reports state := by
  unfold startThreads
  split
  · exact ⟨rfl, rfl⟩
  · next count _ =>
    have started := honest.threadsOnly count state
    rw [Host.run_bind]
    rcases ran : (h.startThreads count).run state with ⟨message | ⟨⟩, next⟩ <;>
      rw [ran] at started <;> exact started

/-- Threads that settings ask for may not be had. -/
theorem startThreads_of_refused {count : UInt64} {message : String} (asks : s.threads = some count)
    (refused : (h.startThreads count).run before = (.error message, after)) :
    (startThreads h s).run before = (.error (.threadPool message), after) := by
  rw [startThreads, asks]
  dsimp only
  rw [Host.run_bind, refused]
  rfl

theorem runCommand_run (h : Host (StateM State)) (s : Settings) (c : Command) (state : State) :
    (runCommand h s c).run state =
      match c.plan s with
      | .error error => (.error error, state)
      | .ok plan =>
        match (h.performAll (plan.directory.toList.map .makeDirectories)).run state with
        | (.error fault, next) => (.error (.storage fault.message), next)
        | (.ok (), next) => (Task.runAll h s plan.tasks).run next := by
  rw [runCommand]
  cases c.plan s with
  | error error => rfl
  | ok plan =>
    dsimp only
    rw [Host.run_bind]
    rcases (h.performAll (plan.directory.toList.map .makeDirectories)).run state
      with ⟨fault | ⟨⟩, next⟩ <;> rfl

theorem run_run (draws : i.command ≠ .configSchema) (state : State) :
    (run h i).run state =
      match (resolveSettings h i).run state with
      | (.error error, next) => (.failed error, next)
      | (.ok settings, resolved) =>
        match (startThreads h settings).run resolved with
        | (.error error, next) => (.failed error, next)
        | (.ok (), ready) =>
          match (runCommand h settings i.command).run ready with
          | (.error error, last) => (.failed error, last)
          | (.ok summaries, last) =>
            (.drawn summaries,
              if i.json then last
              else ((summaries.forM fun summary => h.report summary.report).run last).2) := by
  unfold run
  split
  · next same => exact absurd same draws
  · rw [Host.run_bind]
    rcases (resolveSettings h i).run state with ⟨error | settings, resolved⟩
    · rfl
    · dsimp only
      rw [Host.run_bind]
      rcases (startThreads h settings).run resolved with ⟨error | ⟨⟩, ready⟩
      · rfl
      · dsimp only
        rw [Host.run_bind]
        rcases (runCommand h settings i.command).run ready with ⟨error | summaries, last⟩
        · rfl
        · cases i.json <;> rfl

/-- Tasks are run in order and stopped by the first that fails. -/
theorem runAll_stops (honest : h.Honest files reports)
    (apart : (tasks.map (·.file)).Pairwise (files prepared).Apart)
    {outcome : Except PlotError (List Summary)}
    (ran : (Task.runAll h s tasks).run prepared = (outcome, finish)) :
    (∃ index task error, StoppedAt h files reports s tasks index task error prepared finish ∧
      outcome = .error error) ∨
    ∃ summaries, Completed files reports s tasks summaries true prepared finish ∧
      outcome = .ok summaries := by
  rcases Task.runAll_cases honest apart ran with
    ⟨summaries, rfl, saved, changes, reported⟩ |
    ⟨earlier, task, later, summaries, between, error, rfl, rfl, saved, changes, fails, reported⟩
  · refine .inr ⟨summaries, ⟨saved, changes, ?_⟩, rfl⟩
    rw [reported, if_pos rfl, List.append_nil]
  · have upTo : (earlier ++ task :: later).take (earlier.length + 1) = earlier ++ [task] := by
      simp [List.take_append]
    have behind : (earlier ++ task :: later).drop (earlier.length + 1) = later := by
      simp [List.drop_append]
    have touched : FileTree.ChangesOnly ((earlier ++ [task]).map (·.file)) (files prepared)
        (files finish) :=
      (changes.mono (by simp)).trans (fails.changesOnly.mono (by simp))
    rw [List.map_append, List.map_cons, List.pairwise_append, List.pairwise_cons] at apart
    obtain ⟨-, ⟨taskApart, -⟩, earlierApart⟩ := apart
    refine .inl ⟨earlier.length, task, error, ⟨?_, ⟨between, fails⟩, ?_, ?_, ?_, ?_, ?_⟩, rfl⟩
    · rw [List.getElem?_append_right (Nat.le_refl _), Nat.sub_self, List.getElem?_cons_zero]
    · rw [List.take_left]
      exact ⟨summaries, saved⟩
    · intro refusal refused
      have unchanged : files finish = files between := by
        cases fails with
        | undrawn _ untouched => exact untouched
        | unsaved drawn => rw [refused] at drawn; cases drawn
      rw [unchanged]
      exact sameFile_of_changesOnly changes
        fun other member => earlierApart other member _ List.mem_cons_self
    · intro other member
      rw [behind] at member
      have otherMember : other.file ∈ later.map (·.file) := List.mem_map_of_mem member
      refine sameFile_of_changesOnly touched fun path among => ?_
      rw [List.map_append, List.mem_append] at among
      rcases among with before | same
      · exact earlierApart path before _ (List.mem_cons_of_mem _ otherMember)
      · rw [List.mem_singleton.mp same]
        exact taskApart _ otherMember
    · rw [upTo]
      exact touched
    · rw [reported, List.take_left]

/-- Reporting the summaries of a completed run touches no files. -/
theorem Completed.report (honest : h.Honest files reports) {summaries : List Summary}
    (completed : Completed files reports s tasks summaries true prepared finish) (json : Bool) :
    Completed files reports s tasks summaries json prepared
      (if json then finish
        else ((summaries.forM fun summary => h.report summary.report).run finish).2) := by
  cases json with
  | true => exact completed
  | false =>
    obtain ⟨sameFiles, added⟩ := honest.report_forM summaries Summary.report finish
    rw [if_neg Bool.false_ne_true]
    refine ⟨?_, ?_, ?_⟩
    · rw [sameFiles]
      exact completed.saved
    · rw [sameFiles]
      exact completed.touched
    · rw [added, completed.reported, if_pos rfl, List.append_nil]
      rfl

/-- A command first makes its directory, and then its tasks are run up to the first that fails. -/
theorem runCommand_stops (honest : h.Honest files reports) {c : Command} {plan : Plan}
    (planned : c.plan s = .ok plan) {outcome : Except PlotError (List Summary)}
    (ran : (runCommand h s c).run before = (outcome, after)) :
    ∃ made prepared,
      (h.performAll (plan.directory.toList.map .makeDirectories)).run before = (made, prepared) ∧
      (files before).Extends (files prepared) ∧ reports prepared = reports before ∧
      (∀ fault, made = .error fault →
        outcome = .error (.storage fault.message) ∧ after = prepared) ∧
      (made = .ok () →
        (∃ index task error,
          StoppedAt h files reports s plan.tasks index task error prepared after ∧
          outcome = .error error) ∨
        ∃ summaries, Completed files reports s plan.tasks summaries true prepared after ∧
          outcome = .ok summaries) := by
  have extended := honest.extends_of_performAll plan.directory.toList before
  have silent := honest.performAll_silent (plan.directory.toList.map .makeDirectories) before
  simp only [runCommand_run, planned] at ran
  rcases directoryMade : (h.performAll (plan.directory.toList.map .makeDirectories)).run before
    with ⟨made, prepared⟩
  simp only [directoryMade] at ran extended silent
  refine ⟨made, prepared, rfl, extended, silent, ?_, ?_⟩
  · rintro fault rfl
    cases ran
    exact ⟨rfl, rfl⟩
  · rintro rfl
    have apart : (plan.tasks.map (·.file)).Pairwise (files prepared).Apart :=
      Command.files_of_plan planned ▸ c.apart_files (files prepared)
    exact runAll_stops honest apart ran

/-- On a host that does what it reports, a run draws and saves its plots in order and is stopped by
the first that fails. Nothing is touched if the settings are refused, the threads cannot be started
or the command is refused, and no file if the directory cannot be made. -/
theorem run_stops_at_first_failure (honest : h.Honest files reports)
    (draws : i.command ≠ .configSchema) {outcome : Outcome}
    (ran : (run h i).run start = (outcome, finish)) :
    (∀ error, ((resolveSettings h i).run start).1 = .error error →
      outcome = .failed error ∧ files finish = files start ∧ reports finish = reports start) ∧
    ∀ settings resolved, (resolveSettings h i).run start = (.ok settings, resolved) →
      (∀ count message left, settings.threads = some count →
        (h.startThreads count).run resolved = (.error message, left) →
        outcome = .failed (.threadPool message) ∧ files finish = files start ∧
          reports finish = reports start) ∧
      ∀ ready, (startThreads h settings).run resolved = (.ok (), ready) →
        (∀ error, i.command.Refused error →
          outcome = .failed error ∧ files finish = files start ∧ reports finish = reports start) ∧
        ((∀ error, ¬ i.command.Refused error) →
          ∃ plan made prepared, i.command.plan settings = .ok plan ∧
            (h.performAll (plan.directory.toList.map .makeDirectories)).run ready =
              (made, prepared) ∧
            (files start).Extends (files prepared) ∧ reports prepared = reports start ∧
            (∀ fault, made = .error fault →
              outcome = .failed (.storage fault.message) ∧ finish = prepared) ∧
            (made = .ok () →
              (∃ index task error,
                StoppedAt h files reports settings plan.tasks index task error prepared finish ∧
                outcome = .failed error) ∨
              ∃ summaries,
                Completed files reports settings plan.tasks summaries i.json prepared finish ∧
                outcome = .drawn summaries ∧ summaries.length = i.command.numberOfPlots ∧
                summaries.map (·.file) = i.command.files ∧ i.command.files.Nodup)) := by
  have resolvedOnly := resolveSettings_readsOnly honest i start
  rw [run_run draws] at ran
  refine ⟨fun error rejected => ?_, fun settings resolved accepted => ?_⟩
  · rcases accepted : (resolveSettings h i).run start with ⟨error | settings, next⟩ <;>
      rw [accepted] at ran rejected resolvedOnly <;> cases rejected
    cases ran
    exact ⟨rfl, resolvedOnly⟩
  have startedOnly := startThreads_changesNothing honest settings resolved
  rw [accepted] at ran resolvedOnly
  rw [resolvedOnly.1, resolvedOnly.2] at startedOnly
  refine ⟨fun count message left asks refused => ?_, fun ready started => ?_⟩
  · have unstarted := startThreads_of_refused asks refused
    rw [unstarted] at startedOnly
    simp only [unstarted] at ran
    cases ran
    exact ⟨rfl, startedOnly⟩
  rw [started] at startedOnly
  simp only [started] at ran
  refine ⟨fun error refused => ?_, fun sound => ?_⟩
  · simp only [runCommand_run, Command.plan_eq_error_iff.mpr refused] at ran
    cases ran
    exact ⟨rfl, startedOnly⟩
  have unrefused : ∃ plan, i.command.plan settings = .ok plan := by
    cases planned : i.command.plan settings with
    | error error => exact absurd (Command.plan_eq_error_iff.mp planned) (sound error)
    | ok plan => exact ⟨plan, rfl⟩
  obtain ⟨plan, planned⟩ := unrefused
  rcases commandRan : (runCommand h settings i.command).run ready with ⟨commandOutcome, last⟩
  simp only [commandRan] at ran
  obtain ⟨made, prepared, directoryMade, extended, silent, unmade, goesOn⟩ :=
    runCommand_stops honest planned commandRan
  rw [startedOnly.1] at extended
  rw [startedOnly.2] at silent
  refine ⟨plan, made, prepared, planned, directoryMade, extended, silent, ?_, ?_⟩
  · intro fault isFault
    obtain ⟨rfl, rfl⟩ := unmade fault isFault
    cases ran
    exact ⟨rfl, rfl⟩
  · intro isMade
    rcases goesOn isMade with
      ⟨index, task, error, stopped, rfl⟩ | ⟨summaries, completed, rfl⟩
    · cases ran
      exact .inl ⟨index, task, error, stopped, rfl⟩
    · cases ran
      have named : summaries.map (·.file) = i.command.files :=
        (Task.files_eq_of_saved completed.saved).trans (Command.files_of_plan planned)
      refine .inr ⟨summaries, completed.report honest i.json, rfl, ?_, named,
        i.command.nodup_files⟩
      rw [← i.command.length_files, ← named, List.length_map]

theorem resolveSettings_of_valid (noFile : i.config = none)
    (valid : (override i Settings.standard).validate.isOk = true) (state : State) :
    (resolveSettings h i).run state = (.ok (override i Settings.standard), state) := by
  obtain ⟨⟨⟩, validated⟩ := Outcome.isOk_iff.mp valid
  rw [resolveSettings, noFile, Host.run_bind]
  change (pure ((override i Settings.standard).validate.map fun _ =>
    override i Settings.standard) : StateM State _).run state = _
  rw [validated]
  rfl

/-- The first of two areas has no size, so that neither file is touched. The directory is found from
the root, whichever directory the program works in. -/
theorem run_stops_at_first_failure_at_once :
    let i : Invocation := ⟨.exps (-1.0) 2.0 2 "/d", none, none, none, none, none, some 2, false⟩
    let start : World := ⟨⟨[(["w"], .directory), (["d"], .directory),
      (["d", "exp0.png"], .file (.text ['a'])),
      (["d", "exp1.png"], .file (.text ['b']))], ["w"]⟩, []⟩
    let outcome := ((run World.host i).run start).1
    let finish := ((run World.host i).run start).2
    (∃ error, outcome = .failed error) ∧
      finish.files.node? ["d", "exp0.png"] = some (.file (.text ['a'])) ∧
      finish.files.node? ["d", "exp1.png"] = some (.file (.text ['b'])) ∧
      finish.reports = ["Drawing size [0]: -1..."] := by
  intro i start outcome finish
  have draws : i.command ≠ .configSchema := nofun
  have ran : (run World.host i).run start = (outcome, finish) := rfl
  obtain ⟨-, carriedOut⟩ := run_stops_at_first_failure World.host_honest draws ran
  have resolved := resolveSettings_of_valid (h := World.host) (i := i) rfl (by decide +kernel) start
  obtain ⟨plan, made, prepared, planned, directoryMade, -, -, -, goesOn⟩ :=
    ((carriedOut _ _ resolved).2 _ rfl).2 nofun
  cases planned
  cases directoryMade
  have isRefused : ∃ refusal, Area.centered (-1.0 + 2.0 * (UInt64.ofNat 0).toFloat) =
      .error refusal := by
    have invalid : (Area.centered (-1.0 + 2.0 * (UInt64.ofNat 0).toFloat)).isOk = false := by
      decide +kernel
    cases made : Area.centered (-1.0 + 2.0 * (UInt64.ofNat 0).toFloat) with
    | error refusal => exact ⟨refusal, rfl⟩
    | ok area =>
      rw [made] at invalid
      cases invalid
  obtain ⟨refusal, refused⟩ := isRefused
  have undrawn {first : Task} {s : Settings}
      (area : first.area = Area.centered (-1.0 + 2.0 * (UInt64.ofNat 0).toFloat)) :
      first.draw s = .error refusal :=
    Outcome.bind_eq_error_iff.mpr (.inl (area.trans refused))
  have neverSaved {first : Task} {s : Settings} {t : FileTree} {summary : Summary}
      (area : first.area = Area.centered (-1.0 + 2.0 * (UInt64.ofNat 0).toFloat)) :
      ¬ first.Saved s t summary := by
    rintro ⟨_, _, _, _, drawn, -⟩
    cases (undrawn area).symm.trans drawn
  have firstPlace : start.files.locate (Path.join ⟨"/d"⟩ ("exp" ++ toString 0 ++ ".png")) =
    .ok ["d", "exp0.png"] := rfl
  have secondPlace : start.files.locate (Path.join ⟨"/d"⟩ ("exp" ++ toString 1 ++ ".png")) =
    .ok ["d", "exp1.png"] := rfl
  rcases goesOn rfl with ⟨index, task, error, stopped, failed⟩ | ⟨summaries, completed, -⟩
  · cases index with
    | succ before =>
      obtain ⟨summaries, saved⟩ := stopped.earlier
      cases saved with
      | cons first _ => exact absurd first (neverSaved rfl)
    | zero =>
      cases stopped.isTask
      refine ⟨⟨error, failed⟩, ?_, ?_, ?_⟩
      · exact stopped.undrawn refusal (undrawn rfl) _ firstPlace
      · exact stopped.later _ List.mem_cons_self _ secondPlace
      · exact stopped.reported.trans (congrArg (fun line => [line]) (by decide +kernel))
  · cases completed.saved with
    | cons first _ => exact absurd first (neverSaved rfl)

/-- A run that a plot stopped has reported that it began this plot. -/
theorem StoppedAt.reports_ne {index : Nat} {error : PlotError}
    (stopped : StoppedAt h files reports s tasks index task error prepared finish) :
    reports finish ≠ reports prepared := by
  intro silent
  rw [stopped.reported, List.append_assoc] at silent
  have nothing := List.append_eq_nil_iff.mp (List.append_right_eq_self.mp silent)
  cases nothing.2

/-- Threads do not matter to whether settings are valid. -/
theorem validate_small (threads : Option UInt64) :
    ({ Settings.standard with
      width := 4, height := 3, quality := 7, threads := threads } : Settings).validate.isOk := by
  change ({ Settings.standard with width := 4, height := 3, quality := 7 } :
    Settings).validate.isOk = true
  decide +kernel

/-- Powers are planned as soon as their area is valid. -/
theorem plan_pows {c : Command} {count : UInt64} {directory : String}
    (isPows : c = .pows 2.0 (-0.1) count 6.0 directory) (s : Settings) :
    ∃ tasks, c.plan s = .ok ⟨some ⟨directory⟩, tasks⟩ ∧ tasks.length = count.toNat := by
  have valid : (Area.centered 6.0).isOk = true := by decide +kernel
  obtain ⟨area, centered⟩ := Outcome.isOk_iff.mp valid
  rw [isPows]
  exact ⟨_, Outcome.bind_eq_ok_iff.mpr ⟨area, centered, rfl⟩, by simp [series]⟩

/-- Where a file stands in place of the directory, drawing powers fails before any plot is begun,
however many there are. -/
theorem run_pows_into_file (count : UInt64) :
    let i : Invocation := ⟨.pows 2.0 (-0.1) count 6.0 "f", none, some 4, some 3, some 7, none, none,
      false⟩
    let start : World := ⟨⟨[(["f"], .file (.text "file".toList))], []⟩, []⟩
    ∃ settings plan, (resolveSettings World.host i).run start = (.ok settings, start) ∧
      i.command.plan settings = .ok plan ∧ plan.tasks.length = count.toNat ∧
      (run World.host i).run start = (.failed (.storage "File exists (os error 17)"), start) := by
  intro i start
  have resolved :=
    resolveSettings_of_valid (h := World.host) (i := i) rfl (validate_small none) start
  obtain ⟨tasks, planned, many⟩ :=
    plan_pows (show i.command = _ from rfl) (override i Settings.standard)
  refine ⟨_, _, resolved, planned, many, ?_⟩
  have draws : i.command ≠ .configSchema := by
    intro same
    cases same
  rw [run_run draws, resolved]
  have unthreaded : (startThreads World.host (override i Settings.standard)).run start =
      (.ok (), start) := rfl
  simp only [unthreaded, runCommand_run, planned]
  rfl

/-- The host of a file tree that has no threads to give. -/
def crowdedHost : Host (StateM World) :=
  { World.host with startThreads := fun _ => pure (.error "no more threads") }

theorem crowdedHost_honest : crowdedHost.Honest World.files World.reports :=
  { World.host_honest with threadsOnly := fun _ _ => ⟨rfl, rfl⟩ }

/-- Where there are no threads to be had, drawing powers on a number of threads fails before any
plot is begun, however many there are. -/
theorem run_pows_without_threads (count : UInt64) :
    let i : Invocation := ⟨.pows 2.0 (-0.1) count 6.0 "d", none, some 4, some 3, some 7, none,
      some 2, false⟩
    let start : World := ⟨FileTree.empty, []⟩
    ∃ settings plan, (resolveSettings crowdedHost i).run start = (.ok settings, start) ∧
      i.command.plan settings = .ok plan ∧ plan.tasks.length = count.toNat ∧
      (run crowdedHost i).run start = (.failed (.threadPool "no more threads"), start) := by
  intro i start
  have resolved :=
    resolveSettings_of_valid (h := crowdedHost) (i := i) rfl (validate_small (some 2)) start
  obtain ⟨tasks, planned, many⟩ :=
    plan_pows (show i.command = _ from rfl) (override i Settings.standard)
  refine ⟨_, _, resolved, planned, many, ?_⟩
  have draws : i.command ≠ .configSchema := by
    intro same
    cases same
  have unstarted : (startThreads crowdedHost (override i Settings.standard)).run start =
      (.error (.threadPool "no more threads"), start) := startThreads_of_refused rfl rfl
  rw [run_run draws, resolved]
  simp only [unstarted]

/-- A run may fail before its first plot. Where a file stands in place of the directory, it fails
with no plot to draw, and with one to draw although nothing about this plot has failed: it was not
begun. So does a run on threads that are not to be had. -/
theorem run_fails_before_first_plot :
    let i (count : UInt64) : Invocation :=
      ⟨.pows 2.0 (-0.1) count 6.0 "f", none, some 4, some 3, some 7, none, none, false⟩
    let start : World := ⟨⟨[(["f"], .file (.text "file".toList))], []⟩, []⟩
    let outcome (count : UInt64) := ((run World.host (i count)).run start).1
    let finish (count : UInt64) := ((run World.host (i count)).run start).2
    let threaded : Invocation :=
      ⟨.pows 2.0 (-0.1) 1 6.0 "d", none, some 4, some 3, some 7, none, some 2, false⟩
    let nothing : World := ⟨FileTree.empty, []⟩
    (∃ settings plan, (resolveSettings World.host (i 0)).run start = (.ok settings, start) ∧
      (i 0).command.plan settings = .ok plan ∧ plan.tasks = [] ∧
      outcome 0 = .failed (.storage "File exists (os error 17)")) ∧
    (∃ settings plan, (resolveSettings World.host (i 1)).run start = (.ok settings, start) ∧
      (i 1).command.plan settings = .ok plan ∧ plan.tasks.length = 1 ∧
      outcome 1 = .failed (.storage "File exists (os error 17)") ∧
      ∀ index task error,
        ¬ StoppedAt World.host World.files World.reports settings plan.tasks index task error
          start (finish 1)) ∧
    crowdedHost.Honest World.files World.reports ∧
    ∃ settings plan, (resolveSettings crowdedHost threaded).run nothing = (.ok settings, nothing) ∧
      threaded.command.plan settings = .ok plan ∧ plan.tasks.length = 1 ∧
      ((run crowdedHost threaded).run nothing).1 = .failed (.threadPool "no more threads") ∧
      ∀ index task error,
        ¬ StoppedAt crowdedHost World.files World.reports settings plan.tasks index task error
          nothing ((run crowdedHost threaded).run nothing).2 := by
  intro i start outcome finish threaded nothing
  refine ⟨?_, ?_, crowdedHost_honest, ?_⟩
  · obtain ⟨settings, plan, resolved, planned, none, ran⟩ := run_pows_into_file 0
    exact ⟨settings, plan, resolved, planned, List.eq_nil_of_length_eq_zero none,
      congrArg Prod.fst ran⟩
  · obtain ⟨settings, plan, resolved, planned, one, ran⟩ := run_pows_into_file 1
    have unchanged : finish 1 = start := congrArg Prod.snd ran
    exact ⟨settings, plan, resolved, planned, one, congrArg Prod.fst ran,
      fun _ _ _ stopped => stopped.reports_ne (congrArg World.reports unchanged)⟩
  · obtain ⟨settings, plan, resolved, planned, one, ran⟩ := run_pows_without_threads 1
    have unchanged : ((run crowdedHost threaded).run nothing).2 = nothing := congrArg Prod.snd ran
    exact ⟨settings, plan, resolved, planned, one, congrArg Prod.fst ran,
      fun _ _ _ stopped => stopped.reports_ne (congrArg World.reports unchanged)⟩

end DomainColoring.CommandLine
