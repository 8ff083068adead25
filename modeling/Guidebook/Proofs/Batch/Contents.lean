import Guidebook.Command.Run
import Guidebook.Proofs.FileTree.Contents

/-!
# Runs and What Files Hold

Of the files, a run reads the guides and no others. So in two file systems that differ only in what
other files hold, the same run does the same: it reports the same, hands the same to the publisher
and fails for the same reason, and afterwards the file systems again differ only in these files.

## Main results

* `Run.Alike.andThen`: runs that do the same go on in the same way.
* `FileSystem.SameButContents.perform`, `FileSystem.SameButContents.performAll`: **steps**.
* `FileSystem.SameButContents.processFile`, `FileSystem.SameButContents.generate`: **candidates and
  runs**.
-/

namespace Guidebook

/-! ### Runs that do the same -/

/-- The runs report the same and have the same result, and leave file systems that differ only in
what some files hold. -/
structure Run.Alike {α : Type} (spared : Location → Prop) (run other : Run α) : Prop where
  fs : run.fs.SameButContents spared other.fs
  events : other.events = run.events
  requests : other.requests = run.requests
  result : other.result = run.result

namespace Run.Alike

variable {α β : Type} {spared : Location → Prop} {run other : Run α}

/-- Activities that do nothing do so alike. -/
theorem pure {fs there : FileSystem} (h : fs.SameButContents spared there) (value : α) :
    Alike spared (.pure fs value) (.pure there value) :=
  ⟨h, rfl, rfl, rfl⟩

/-- Activities that fail at once do so alike. -/
theorem fail {fs there : FileSystem} (h : fs.SameButContents spared there) (failure : Failure) :
    Alike spared (.fail fs failure : Run α) (.fail there failure) :=
  ⟨h, rfl, rfl, rfl⟩

/-- An event in front leaves alike what is alike. -/
theorem afterEvent (h : Alike spared run other) (event : Event) :
    Alike spared (run.afterEvent event) (other.afterEvent event) :=
  ⟨h.fs, congrArg (event :: ·) h.events, h.requests, h.result⟩

/-- A request in front leaves alike what is alike. -/
theorem afterRequest (h : Alike spared run other) (request : Request) :
    Alike spared (run.afterRequest request) (other.afterRequest request) :=
  ⟨h.fs, h.events, congrArg (request :: ·) h.requests, h.result⟩

/-- **Runs that do the same** go on in the same way. -/
theorem andThen (h : Alike spared run other) {next : FileSystem → α → Run β}
    (hnext : ∀ {fs there} (value : α), fs.SameButContents spared there →
      Alike spared (next fs value) (next there value)) :
    Alike spared (run.andThen next) (other.andThen next) := by
  rw [Run.andThen, Run.andThen, h.result]
  cases run.result with
  | error failure => exact ⟨h.fs, h.events, h.requests, rfl⟩
  | ok value =>
      obtain ⟨hlater, hevents, hrequests, hresult⟩ := hnext value h.fs
      refine ⟨hlater, ?_, ?_, hresult⟩
      · simp only [h.events, hevents]
      · simp only [h.requests, hrequests]

end Run.Alike

namespace FileSystem.SameButContents

variable {spared : Location → Prop} {fs other : FileSystem}

/-! ### Steps -/

/-- **One step** does the same. -/
theorem perform (h : fs.SameButContents spared other) (step : Step) :
    Run.Alike spared (step.perform fs) (step.perform other) := by
  cases step with
  | ensure directory =>
      rw [Step.perform, Step.perform]
      have hmade := h.ensureDirectories directory
      revert hmade
      rcases fs.ensureDirectories directory with ⟨later, error?⟩
      rcases other.ensureDirectories directory with ⟨after, errorThere?⟩
      rintro ⟨herror, hsame⟩
      obtain rfl : errorThere? = error? := herror
      cases errorThere? with
      | none => exact (Run.Alike.pure hsame ()).afterEvent _
      | some e => exact .fail hsame _
  | write kind path content =>
      rw [Step.perform, Step.perform]
      rcases h.write path (.text content) with ⟨e, hwrite, hother⟩ |
        ⟨later, after, hwrite, hother, hsame⟩
      · rw [hwrite, hother]
        exact (Run.Alike.fail h _).afterEvent _
      · rw [hwrite, hother]
        exact (Run.Alike.pure hsame ()).afterEvent _

/-- **Steps** do the same. -/
theorem performAll (h : fs.SameButContents spared other) (steps : List Step) :
    Run.Alike spared (Guidebook.performAll fs steps) (Guidebook.performAll other steps) := by
  induction steps generalizing fs other with
  | nil => exact .pure h ()
  | cons step steps ih => exact (h.perform step).andThen fun _ hlater => ih hlater

/-! ### Candidates -/

section Candidates

variable (publisher : Publisher) (settings : Settings)

/-- **Writing a publication** does the same in both file systems. -/
theorem writePublication (h : fs.SameButContents spared other) (file : GuideFile)
    (publication : Publication) :
    Run.Alike spared (Guidebook.writePublication settings fs file publication)
      (Guidebook.writePublication settings other file publication) := by
  rw [Guidebook.writePublication, Guidebook.writePublication]
  cases publishPlace? publication.directives with
  | none => exact .fail h _
  | some place => exact (h.performAll _).andThen fun _ hlater => .pure hlater _

/-- **Taking a guide** does the same in both, if it holds the same in both. -/
theorem processGuide (h : fs.SameButContents spared other) {path : Path}
    (hpath : ¬ spared (path.resolve fs.here)) :
    Run.Alike spared (Guidebook.processGuide publisher settings fs path)
      (Guidebook.processGuide publisher settings other path) := by
  rw [Guidebook.processGuide, Guidebook.processGuide, h.read_eq hpath]
  cases GuideFile.ofPath? settings.sources path with
  | none => exact .fail h _
  | some file =>
      cases fs.read path with
      | error e => exact .fail h _
      | ok content =>
          refine Run.Alike.afterRequest ?_ _
          cases publisher (requestFor settings file content).content
              (requestFor settings file content).package
              (requestFor settings file content).link with
          | error rejection => exact (Run.Alike.pure h _).afterEvent _
          | ok publication =>
              exact (h.writePublication settings file publication).andThen fun _ hlater =>
                .pure hlater _

variable (hguides : ∀ here path, Format.ofPath? path = some .kotlin → ¬ spared (path.resolve here))
include hguides

/-- **A candidate** is taken in the same way, if guides do not lie where the file systems differ. -/
theorem processFile (h : fs.SameButContents spared other) (path : Path) :
    Run.Alike spared (Guidebook.processFile publisher settings fs path)
      (Guidebook.processFile publisher settings other path) := by
  rw [Guidebook.processFile, Guidebook.processFile]
  cases hformat : Format.ofPath? path with
  | none => exact (Run.Alike.pure h _).afterEvent _
  | some format =>
      cases format with
      | kotlin => exact h.processGuide publisher settings (hguides _ _ hformat)
      | legacyMarkdown => exact .fail h _

/-- **Taking candidates** does the same in both, one after the other. -/
theorem processAll (h : fs.SameButContents spared other) (report : Report) (paths : List Path) :
    Run.Alike spared (Guidebook.processAll publisher settings fs report paths)
      (Guidebook.processAll publisher settings other report paths) := by
  induction paths generalizing fs other report with
  | nil => exact .pure h report
  | cons path paths ih =>
      exact (h.processFile publisher settings hguides path).andThen fun _ hlater => ih hlater _

/-- **A run** over the same candidates does the same, if guides do not lie where the file systems
differ. -/
theorem generate (h : fs.SameButContents spared other) (paths : List Path) :
    Run.Alike spared (Guidebook.generate publisher settings fs paths)
      (Guidebook.generate publisher settings other paths) :=
  (h.processAll publisher settings hguides .empty paths).andThen fun _ hlater =>
    (Run.Alike.pure hlater _).afterEvent _

end Candidates

end FileSystem.SameButContents

end Guidebook
