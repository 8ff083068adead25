import Guidebook.Proofs.Batch.Isolation

/-!
# The Account of a Run

A run that succeeds does to the files what a list of steps does: those of the plans of its guides,
in order. So what the steps write and make sure of is what the run has changed. The report names all
of it: its lists hold the paths of the files that have been written, and each candidate is counted
once.

## Main results

* `Took.performAll_eq`: **a run is the steps of its guides**, carried out in order.
* `Took.perm_files`: the report names what has been written.
* `account_generate`: **the account of a run**.
-/

namespace Guidebook

/-! ### The steps of a run -/

/-- The steps that have to be carried out for a candidate: those of its plan, if it is a guide that
can be published. -/
def stepsFor (publisher : Publisher) (settings : Settings) (fs : FileSystem) (path : Path) :
    List Step :=
  match Format.ofPath? path, GuideFile.ofPath? settings.sources path, fs.read path with
  | some .kotlin, some file, .ok content =>
    match publisher.ofGuide settings file content with
    | .error _ => []
    | .ok publication =>
      match publishPlace? publication.directives with
      | none => []
      | some place => (Plan.ofPublication settings file publication place).steps
  | _, _, _ => []

/-- The steps that have to be carried out for candidates, one after the other. -/
def stepsOfRun (publisher : Publisher) (settings : Settings) : FileSystem → List Path → List Step
  | _, [] => []
  | fs, path :: paths =>
    stepsFor publisher settings fs path ++
      stepsOfRun publisher settings (processFile publisher settings fs path).fs paths

/-- Whether an event announces a step. -/
def Event.isStep : Event → Bool
  | .ensured _ | .writing _ _ => true
  | _ => false

/-- Every event of a step announces one. -/
theorem filter_isStep_map_event (steps : List Step) :
    (steps.map Step.event).filter Event.isStep = steps.map Step.event := by
  refine List.filter_eq_self.2 fun event hevent => ?_
  obtain ⟨step, -, rfl⟩ := List.mem_map.1 hevent
  cases step <;> rfl

/-- The files that a report names. -/
def Report.files (report : Report) : List Path :=
  report.pages ++ report.runnable ++ report.exported

/-- A reported file is a page, a runnable program or an exported one. -/
theorem Report.mem_files {report : Report} {path : Path} :
    path ∈ report.files ↔
      path ∈ report.pages ∨ path ∈ report.runnable ∨ path ∈ report.exported := by
  rw [files, List.mem_append, List.mem_append, or_assoc]

section Candidates

variable {publisher : Publisher} {settings : Settings} {fs : FileSystem} {path : Path}
  {outcome : Outcome}

/-- The steps of a guide that is turned into files are those of its plan. -/
theorem stepsFor_of_generation (g : Generation publisher settings fs path) :
    stepsFor publisher settings fs path = g.plan.steps := by
  have hpublished : publisher.ofGuide settings g.file g.content = .ok g.publication := g.published
  simp only [stepsFor, Format.ofPath?_eq_kotlin_iff.2 g.isGuide, g.found, g.read, hpublished,
    g.placed]
  rfl

/-- Nothing has to be done for a guide that is rejected. -/
theorem stepsFor_of_rejected {file : GuideFile} {content : Text} {rejection : Rejection}
    (hguide : path.extension? = some "kt".toList)
    (hfound : GuideFile.ofPath? settings.sources path = some file)
    (hread : fs.read path = .ok content)
    (hrejected : publisher.ofGuide settings file content = .error rejection) :
    stepsFor publisher settings fs path = [] := by
  simp only [stepsFor, Format.ofPath?_eq_kotlin_iff.2 hguide, hfound, hread, hrejected]

/-- Nothing has to be done for a file that is no guide. -/
theorem stepsFor_of_ignored (hguide : path.extension? ≠ some "kt".toList) :
    stepsFor publisher settings fs path = [] := by
  rw [stepsFor]
  split
  · next hformat _ _ => exact absurd (Format.ofPath?_eq_kotlin_iff.1 hformat) hguide
  · rfl

/-- What a candidate has done to the files that has not stopped a run: its steps have been carried
out and announced, and its report names the files that they write. -/
structure CarriedOut (publisher : Publisher) (settings : Settings) (fs : FileSystem) (path : Path)
    (outcome : Outcome) : Prop where
  completed : (performAll fs (stepsFor publisher settings fs path)).result = .ok ()
  left : (processFile publisher settings fs path).fs =
    (performAll fs (stepsFor publisher settings fs path)).fs
  announced : (processFile publisher settings fs path).events.filter Event.isStep =
    (stepsFor publisher settings fs path).map Step.event
  named : (Report.ofCandidate settings path outcome).files =
    (writesOf (stepsFor publisher settings fs path)).map Prod.fst

/-- Each file that the steps write is named. -/
theorem CarriedOut.mem_files (h : CarriedOut publisher settings fs path outcome) {w : Path × Text}
    (hw : w ∈ writesOf (stepsFor publisher settings fs path)) :
    w.1 ∈ (Report.ofCandidate settings path outcome).files := by
  rw [h.named]
  exact List.mem_map_of_mem hw

/-- A guide that has been generated has carried out the steps of its plan. -/
theorem carriedOut_of_generated {outputs : Outputs}
    (h : (processFile publisher settings fs path).result = .ok (.generated outputs)) :
    CarriedOut publisher settings fs path (.generated outputs) := by
  obtain ⟨g, hsteps, rfl, hfs⟩ := exists_generation h
  have hfor : stepsFor publisher settings fs path = g.plan.steps := stepsFor_of_generation g
  exact {
    completed := by rw [hfor, hsteps]
    left := by rw [hfor, hfs]
    announced := by
      rw [hfor, processFile_eq_performAll g, events_performAll hsteps, filter_isStep_map_event]
    named := by rw [hfor, g.writesOf_plan, g.map_fst_files]; rfl }

/-- Where nothing has to be done, nothing must have become of the files. -/
theorem carriedOut_of_nothing (hfor : stepsFor publisher settings fs path = [])
    (hfs : (processFile publisher settings fs path).fs = fs)
    (hevents : (processFile publisher settings fs path).events.filter Event.isStep = [])
    (hfiles : (Report.ofCandidate settings path outcome).files = []) :
    CarriedOut publisher settings fs path outcome where
  completed := by rw [hfor]; rfl
  left := by rw [hfor, hfs]; rfl
  announced := by rw [hfor, hevents]; rfl
  named := by rw [hfor, hfiles]; rfl

/-- A guide that is skipped has no steps. -/
theorem carriedOut_of_skipped {rejection : Rejection}
    (h : (processFile publisher settings fs path).result = .ok (.skipped rejection)) :
    CarriedOut publisher settings fs path (.skipped rejection) := by
  obtain ⟨hguide, file, content, hfound, hread, hrejected⟩ := exists_rejected_of_skipped h
  have hprocess := processFile_of_rejected hguide hfound hread hrejected
  exact carriedOut_of_nothing (stepsFor_of_rejected hguide hfound hread hrejected)
    (by rw [hprocess]; rfl) (by rw [hprocess]; rfl) rfl

/-- A file that is no guide has no steps. -/
theorem carriedOut_of_ignored
    (h : (processFile publisher settings fs path).result = .ok .ignored) :
    CarriedOut publisher settings fs path .ignored := by
  obtain ⟨hlegacy, hguide⟩ := extension_of_ignored h
  have hprocess : processFile publisher settings fs path =
      .afterEvent (.ignored path) (.pure fs .ignored) := processFile_of_ignored hlegacy hguide
  exact carriedOut_of_nothing (stepsFor_of_ignored hguide)
    (by rw [hprocess]; rfl) (by rw [hprocess]; rfl) rfl

/-- **What a candidate has done** that has not stopped a run. -/
theorem carriedOut_processFile
    (h : (processFile publisher settings fs path).result = .ok outcome) :
    CarriedOut publisher settings fs path outcome := by
  cases outcome with
  | generated outputs => exact carriedOut_of_generated h
  | skipped rejection => exact carriedOut_of_skipped h
  | ignored => exact carriedOut_of_ignored h

/-- A candidate of which the report names a file is one of which files have been generated. -/
theorem exists_generation_of_mem_files
    (h : (processFile publisher settings fs path).result = .ok outcome) {file : Path}
    (hfile : file ∈ (Report.ofCandidate settings path outcome).files) :
    ∃ g : Generation publisher settings fs path, outcome = .generated g.plan.outputs := by
  cases outcome with
  | generated outputs =>
      obtain ⟨g, -, rfl, -⟩ := exists_generation h
      exact ⟨g, rfl⟩
  | skipped rejection => cases hfile
  | ignored => cases hfile

/-- A candidate that writes a file is one of which files have been generated. -/
theorem exists_generation_of_mem_writesOf
    (h : (processFile publisher settings fs path).result = .ok outcome) {w : Path × Text}
    (hw : w ∈ writesOf (stepsFor publisher settings fs path)) :
    ∃ g : Generation publisher settings fs path, outcome = .generated g.plan.outputs :=
  exists_generation_of_mem_files h ((carriedOut_processFile h).mem_files hw)

end Candidates

/-! ### Runs -/

/-- The files of two summaries together are those of each, up to their order. -/
theorem Report.perm_files_append (first second : Report) :
    (first ++ second).files.Perm (first.files ++ second.files) := by
  refine List.perm_iff_count.2 fun path => ?_
  simp only [files, pages_append, runnable_append, exported_append, List.count_append]
  omega

section Runs

variable {publisher : Publisher} {settings : Settings} {fs later : FileSystem}
  {taken : List (Path × Outcome)} {paths : List Path} {report : Report}

/-- **A run is the steps of its guides**, carried out in order. -/
theorem Took.performAll_eq (h : Took publisher settings fs taken later) :
    (performAll fs (stepsOfRun publisher settings fs (taken.map Prod.fst))).result = .ok () ∧
      (performAll fs (stepsOfRun publisher settings fs (taken.map Prod.fst))).fs = later := by
  induction h with
  | nil fs => exact ⟨rfl, rfl⟩
  | cons first others ih =>
      have hfirst := carriedOut_processFile first
      rw [List.map_cons, stepsOfRun, performAll_append_eq_ok_iff,
        fs_performAll_append hfirst.completed, ← hfirst.left]
      exact ⟨⟨hfirst.completed, ih.1⟩, ih.2⟩

/-- The report names what the steps have written, as often as they have. -/
theorem Took.perm_files (h : Took publisher settings fs taken later) :
    (Report.ofTaken settings taken).files.Perm
      ((writesOf (stepsOfRun publisher settings fs (taken.map Prod.fst))).map Prod.fst) := by
  induction h with
  | nil fs => exact .nil
  | cons first others ih =>
      rw [List.map_cons, stepsOfRun, writesOf_append, List.map_append,
        ← (carriedOut_processFile first).named, Report.ofTaken_cons]
      exact (Report.perm_files_append _ _).trans (ih.append_left _)

/-- The lists of a report hold what the candidates have added to them, in order. -/
theorem Report.ofTaken_lists (settings : Settings) (taken : List (Path × Outcome)) :
    (ofTaken settings taken).pages =
        taken.flatMap (fun c => (ofCandidate settings c.1 c.2).pages) ∧
      (ofTaken settings taken).runnable =
        taken.flatMap (fun c => (ofCandidate settings c.1 c.2).runnable) ∧
      (ofTaken settings taken).exported =
        taken.flatMap (fun c => (ofCandidate settings c.1 c.2).exported) ∧
      (ofTaken settings taken).skipped =
        taken.flatMap (fun c => (ofCandidate settings c.1 c.2).skipped) := by
  induction taken with
  | nil => exact ⟨rfl, rfl, rfl, rfl⟩
  | cons candidate taken ih =>
      obtain ⟨hpages, hrunnable, hexported, hskipped⟩ := ih
      rw [ofTaken_cons]
      simp only [pages_append, runnable_append, exported_append, skipped_append, List.flatMap_cons,
        hpages, hrunnable, hexported, hskipped]
      exact ⟨trivial, trivial, trivial, trivial⟩

/-- Every candidate is counted once, by its page, as skipped, or as ignored. -/
theorem Report.count_ofTaken (settings : Settings) (taken : List (Path × Outcome)) :
    (Report.ofTaken settings taken).pages.length + (Report.ofTaken settings taken).skipped.length +
      (Report.ofTaken settings taken).ignored = taken.length := by
  induction taken with
  | nil => rfl
  | cons candidate taken ih =>
      obtain ⟨path, outcome⟩ := candidate
      have hone : (Report.ofCandidate settings path outcome).pages.length +
          (Report.ofCandidate settings path outcome).skipped.length +
          (Report.ofCandidate settings path outcome).ignored = 1 := by
        cases outcome <;> rfl
      rw [Report.ofTaken_cons]
      simp only [Report.pages_append, Report.skipped_append, Report.ignored_append,
        List.length_append, List.length_cons]
      omega

/-- What is announced of a run are its steps, in order. -/
theorem filter_events_processAll {before : Report}
    (h : (processAll publisher settings fs before paths).result = .ok report) :
    (processAll publisher settings fs before paths).events.filter Event.isStep =
      (stepsOfRun publisher settings fs paths).map Step.event := by
  induction paths generalizing fs before with
  | nil => rfl
  | cons path paths ih =>
      rw [processAll] at h ⊢
      obtain ⟨outcome, hpath, hmore⟩ := Run.andThen_eq_ok_iff.1 h
      rw [Run.andThen, hpath]
      simp only [List.filter_append, ih hmore, (carriedOut_processFile hpath).announced, stepsOfRun,
        List.map_append]

/-- The events of a run that succeeds, but for those that concern no step, are the events of its
steps in their order. -/
theorem filter_events_generate
    (h : (generate publisher settings fs paths).result = .ok report) :
    (generate publisher settings fs paths).events.filter Event.isStep =
      (stepsOfRun publisher settings fs paths).map Step.event := by
  rw [result_generate] at h
  rw [generate, Run.andThen, h]
  simp only [List.filter_append, filter_events_processAll h]
  exact List.append_nil _

end Runs

/-! ### The account -/

/-- What the report of a run over candidates says of the files that the run leaves. -/
structure Account (publisher : Publisher) (settings : Settings) (fs : FileSystem)
    (paths : List Path) (later : FileSystem) (report : Report) : Prop where
  /-- The run has been the steps of its guides. -/
  performed : (performAll fs (stepsOfRun publisher settings fs paths)).result = .ok () ∧
    (performAll fs (stepsOfRun publisher settings fs paths)).fs = later
  /-- It has announced them, in order. -/
  announced : (generate publisher settings fs paths).events.filter Event.isStep =
    (stepsOfRun publisher settings fs paths).map Step.event
  /-- The report names the files that the steps write, as often as they do. -/
  named : report.files.Perm ((writesOf (stepsOfRun publisher settings fs paths)).map Prod.fst)
  /-- A file that is new, or has another content, is named. -/
  changed : ∀ place content, (fs.tree.entryAt? place = some (.file content) ∨
      later.tree.entryAt? place = some (.file content)) →
    later.tree.entryAt? place ≠ fs.tree.entryAt? place →
    ∃ path ∈ report.files, path.resolve fs.here = place
  /-- Where a path that is named leads there is the file that has been written there last. -/
  listed : ∀ path ∈ report.files, later.locate path = .ok (path.resolve fs.here) ∧
    ∃ content, lastWrite? fs.here (path.resolve fs.here)
        (writesOf (stepsOfRun publisher settings fs paths)) = some content ∧
      later.read path = .ok content
  /-- Files stay. -/
  kept : ∀ place content, fs.tree.entryAt? place = some (.file content) →
    ∃ new, later.tree.entryAt? place = some (.file new)
  /-- A directory that is new is on the way to an output directory that has been made. -/
  made : ∀ place, fs.tree.entryAt? place ≠ some .directory →
    later.tree.entryAt? place = some .directory →
    ∃ directory ∈ directoriesOf (stepsOfRun publisher settings fs paths),
      place ∈ directory.way fs.here ∧
        fs.isDirectory directory = false ∧ later.isDirectory directory = true
  /-- The report puts together what has become of the candidates, in their order. -/
  candidates : ∃ taken : List (Path × Outcome), taken.map Prod.fst = paths ∧
    Took publisher settings fs taken later ∧
    report.pages = taken.flatMap (fun c => (Report.ofCandidate settings c.1 c.2).pages) ∧
    report.runnable = taken.flatMap (fun c => (Report.ofCandidate settings c.1 c.2).runnable) ∧
    report.exported = taken.flatMap (fun c => (Report.ofCandidate settings c.1 c.2).exported) ∧
    report.skipped = taken.flatMap (fun c => (Report.ofCandidate settings c.1 c.2).skipped)
  /-- Each candidate is counted once. -/
  counted : report.pages.length + report.skipped.length + report.ignored = paths.length

/-- Candidates that have been taken one after the other have carried out their steps. -/
theorem Took.performed {publisher : Publisher} {settings : Settings} {fs later : FileSystem}
    {taken : List (Path × Outcome)} (h : Took publisher settings fs taken later) :
    Performed fs (stepsOfRun publisher settings fs (taken.map Prod.fst)) later := by
  obtain ⟨hsteps, hfs⟩ := h.performAll_eq
  have hperformed := performed_performAll hsteps
  rwa [hfs] at hperformed

/-- **Candidates that have been taken** one after the other have a right account. -/
theorem Took.account {publisher : Publisher} {settings : Settings} {fs later : FileSystem}
    {taken : List (Path × Outcome)} (h : Took publisher settings fs taken later) :
    Account publisher settings fs (taken.map Prod.fst) later (.ofTaken settings taken) := by
  have hperformed := h.performed
  have hfiles : ∀ {path}, path ∈ (Report.ofTaken settings taken).files ↔ ∃ w ∈ writesOf
      (stepsOfRun publisher settings fs (taken.map Prod.fst)), w.1 = path := by
    intro path
    rw [h.perm_files.mem_iff, List.mem_map]
  exact {
    performed := h.performAll_eq
    announced := filter_events_generate h.generate_eq.1
    named := h.perm_files
    changed := by
      intro place content hfile hne
      obtain ⟨w, hw, hplace⟩ := hperformed.change.exists_write hfile hne
      exact ⟨w.1, hfiles.2 ⟨w, hw, rfl⟩, hplace⟩
    listed := by
      intro path hpath
      obtain ⟨w, hw, rfl⟩ := hfiles.1 hpath
      exact ⟨hperformed.written w hw, hperformed.exists_read hw⟩
    kept := hperformed.change.keeps.file
    made := fun place hold hnew => hperformed.exists_directory hold hnew
    candidates := ⟨taken, rfl, h, Report.ofTaken_lists settings taken⟩
    counted := by rw [Report.count_ofTaken, List.length_map] }

/-- **The account of a run** that succeeds is right. -/
theorem account_generate {publisher : Publisher} {settings : Settings} {fs : FileSystem}
    {paths : List Path} {report : Report}
    (h : (generate publisher settings fs paths).result = .ok report) :
    Account publisher settings fs paths (generate publisher settings fs paths).fs report := by
  obtain ⟨taken, rfl, htook, rfl⟩ := exists_took h
  exact htook.account

/-- Of two guides with the same page, both are named in the account. -/
theorem account_of_shared_page :
    Account Guide.publish .plain .sharedPage candidatesOfSharedPage
      (generate Guide.publish .plain .sharedPage candidatesOfSharedPage).fs reportOfSharedPage :=
  account_generate (by decide +kernel)

end Guidebook
