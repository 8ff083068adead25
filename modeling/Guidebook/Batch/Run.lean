import Guidebook.Batch.Plan
import Guidebook.Failure

/-!
# Runs

A run takes candidates one after the other. A rejected guide is reported and skipped, a file that
is no guide is ignored; anything else that goes wrong stops the run, and what has been written until
then stays.

## Main results

* `Run.pure_andThen`, `Run.andThen_pure`, `Run.andThen_assoc`: how runs go on after one another.
* `performAll_append`, `processAll_append`: a sequence can be taken in two parts.
-/

namespace Guidebook

/-- What a publisher is handed for a guide. -/
structure Request where
  content : Text
  package : Text
  link : Option PublicLink
  deriving DecidableEq, Repr

/-- The outcome of an activity: the file system afterwards, what has been reported, what publishers
have been handed, and the result. All but the result are there even if the activity fails. -/
structure Run (α : Type) where
  fs : FileSystem
  events : List Event
  requests : List Request
  result : Except Failure α

namespace Run

variable {α β : Type}

/-- The run that does nothing. -/
def pure (fs : FileSystem) (value : α) : Run α :=
  ⟨fs, [], [], .ok value⟩

/-- The run that fails at once. -/
def fail (fs : FileSystem) (failure : Failure) : Run α :=
  ⟨fs, [], [], .error failure⟩

/-- The run that goes on, after a success, with `next`. -/
def andThen (run : Run α) (next : FileSystem → α → Run β) : Run β :=
  match run.result with
  | .error failure => ⟨run.fs, run.events, run.requests, .error failure⟩
  | .ok value =>
    let more := next run.fs value
    ⟨more.fs, run.events ++ more.events, run.requests ++ more.requests, more.result⟩

/-- Behind an activity that does nothing, the next one goes on with its value. -/
@[simp] theorem pure_andThen (fs : FileSystem) (value : α) (next : FileSystem → α → Run β) :
    (pure fs value).andThen next = next fs value := by
  simp [pure, andThen]

/-- Behind a failure, nothing goes on. -/
@[simp] theorem fail_andThen (fs : FileSystem) (failure : Failure)
    (next : FileSystem → α → Run β) : (fail fs failure).andThen next = fail fs failure := rfl

/-- Going on with nothing changes nothing. -/
@[simp] theorem andThen_pure (run : Run α) : run.andThen pure = run := by
  obtain ⟨fs, events, requests, result⟩ := run
  cases result <;> simp [andThen, pure]

/-- Going on is the same from the first pause as from the last. -/
theorem andThen_assoc {γ : Type} (run : Run α) (next : FileSystem → α → Run β)
    (last : FileSystem → β → Run γ) :
    (run.andThen next).andThen last =
      run.andThen fun fs value => (next fs value).andThen last := by
  obtain ⟨fs, events, requests, result⟩ := run
  cases result with
  | error failure => rfl
  | ok value =>
    simp only [andThen]
    split <;> simp_all

/-- The run with an event in front. -/
def afterEvent (event : Event) (run : Run α) : Run α :=
  { run with events := event :: run.events }

/-- The run with a request in front. -/
def afterRequest (request : Request) (run : Run α) : Run α :=
  { run with requests := request :: run.requests }

end Run

/-! ### Steps -/

/-- Does one thing. A file is announced before it is written, a directory once it is there. -/
def Step.perform (fs : FileSystem) : Step → Run Unit
  | .ensure directory =>
    match fs.ensureDirectories directory with
    | ⟨fs, none⟩ => .afterEvent (.ensured directory) (.pure fs ())
    | ⟨fs, some e⟩ => .fail fs (.io e)
  | .write kind path content =>
    .afterEvent (.writing kind path) <|
      match fs.write path (.text content) with
      | .ok fs => .pure fs ()
      | .error e => .fail fs (.io e)

/-- Does one thing after the other, as far as it goes. -/
def performAll (fs : FileSystem) : List Step → Run Unit
  | [] => .pure fs ()
  | step :: steps => (step.perform fs).andThen fun fs _ => performAll fs steps

/-- Steps are carried out in two parts as they are in one. -/
theorem performAll_append (fs : FileSystem) (first second : List Step) :
    performAll fs (first ++ second) =
      (performAll fs first).andThen fun fs _ => performAll fs second := by
  induction first generalizing fs with
  | nil => simp [performAll]
  | cons step first ih => simp [performAll, Run.andThen_assoc, ih]

/-! ### Files -/

/-- What becomes of a candidate. -/
inductive Outcome where
  | generated (outputs : Outputs)
  | skipped (rejection : Rejection)
  | ignored
  deriving DecidableEq, Repr

/-- Puts a publication in its place. -/
def writePublication (settings : Settings) (fs : FileSystem) (file : GuideFile)
    (publication : Publication) : Run Outputs :=
  match publishPlace? publication.directives with
  | none => .fail fs (.missingDirective "URL".toList file.relativePath.slashed)
  | some place =>
    let plan := Plan.ofPublication settings file publication place
    (performAll fs plan.steps).andThen fun fs _ => .pure fs plan.outputs

/-- What the publisher is handed for a guide with the given content. -/
def requestFor (settings : Settings) (file : GuideFile) (content : Text) : Request :=
  { content := Text.unifyLineEnds content
    package := file.toNamespace.package
    link := settings.rootUrl.map fun base => .ofGuide base file }

/-- Takes one guide. -/
def processGuide (publisher : Publisher) (settings : Settings) (fs : FileSystem) (path : Path) :
    Run Outcome :=
  match GuideFile.ofPath? settings.sources path with
  | none => .fail fs (.sourceOutsideRoot path settings.sources)
  | some file =>
    match fs.read path with
    | .error e => .fail fs (.io e)
    | .ok content =>
      let request := requestFor settings file content
      .afterRequest request <|
        match publisher request.content request.package request.link with
        | .error rejection =>
          .afterEvent (.rejected file.relativePath.slashed rejection)
            (.pure fs (.skipped rejection))
        | .ok publication =>
          (writePublication settings fs file publication).andThen fun fs outputs =>
            .pure fs (.generated outputs)

/-- Takes one candidate. -/
def processFile (publisher : Publisher) (settings : Settings) (fs : FileSystem) (path : Path) :
    Run Outcome :=
  match Format.ofPath? path with
  | some .kotlin => processGuide publisher settings fs path
  | some .legacyMarkdown => .fail fs (.unsupportedFormat path)
  | none => .afterEvent (.ignored path) (.pure fs .ignored)

/-! ### Batches -/

/-- A source that was skipped, as seen from the root of the guides, and why. -/
structure SkippedFile where
  file : Path
  rejection : Rejection
  deriving DecidableEq, Repr

/-- The summary of a run. -/
structure Report where
  pages : List Path
  runnable : List Path
  exported : List Path
  skipped : List SkippedFile
  /-- How many candidates were no guides. -/
  ignored : Nat
  deriving DecidableEq, Repr

namespace Report

/-- The summary of nothing. -/
def empty : Report := ⟨[], [], [], [], 0⟩

/-- Whether no source was skipped. -/
def isOk (report : Report) : Bool :=
  report.skipped.isEmpty

/-- The summary with what became of one more file. -/
def record (report : Report) (file : Path) : Outcome → Report
  | .generated outputs =>
    { report with
      pages := report.pages ++ [outputs.page]
      runnable := report.runnable ++ outputs.runnable
      exported := report.exported ++ outputs.exported }
  | .skipped rejection => { report with skipped := report.skipped ++ [⟨file, rejection⟩] }
  | .ignored => { report with ignored := report.ignored + 1 }

/-- The event that ends a run. -/
def completion (report : Report) : Event :=
  .complete report.pages.length report.runnable.length report.exported.length
    report.skipped.length

end Report

/-- Takes the candidates in order, and adds what becomes of them to `report`. -/
def processAll (publisher : Publisher) (settings : Settings) (fs : FileSystem) (report : Report) :
    List Path → Run Report
  | [] => .pure fs report
  | path :: paths =>
    (processFile publisher settings fs path).andThen fun fs outcome =>
      let file := (path.relativeTo? settings.sources).getD path
      processAll publisher settings fs (report.record file outcome) paths

/-- Candidates are taken in two parts as they are in one: the second part goes on with the files and
the summary that the first has left. -/
theorem processAll_append (publisher : Publisher) (settings : Settings) (fs : FileSystem)
    (report : Report) (first second : List Path) :
    processAll publisher settings fs report (first ++ second) =
      (processAll publisher settings fs report first).andThen fun fs report =>
        processAll publisher settings fs report second := by
  induction first generalizing fs report with
  | nil => simp [processAll]
  | cons path first ih => simp [processAll, Run.andThen_assoc, ih]

/-- **A run** over the candidates, in order. -/
def generate (publisher : Publisher) (settings : Settings) (fs : FileSystem) (paths : List Path) :
    Run Report :=
  (processAll publisher settings fs .empty paths).andThen fun fs report =>
    .afterEvent report.completion (.pure fs report)

end Guidebook
