import Guidebook.Batch.Run
import Guidebook.Proofs.GuideFile

/-!
# Successful Runs

What a run that succeeds has behind it: a sequence succeeds if its parts do, one with the files that
the other has left, and a guide of which files have been generated has been found, read, published
and written.

## Main results

* `Run.andThen_eq_ok_iff`, `Run.fs_andThen`: success of a sequence.
* `Run.andThen_value`: a sequence that ends with a value.
* `performAll_append_eq_ok_iff`, `write_of_perform`: success of steps.
* `exists_generation`: **what is behind generated files**.
-/

namespace Guidebook

/-! ### Success of a sequence -/

namespace Run

variable {α β : Type}

/-- A sequence succeeds with what its second part makes of the success of the first. -/
theorem andThen_eq_ok_iff {run : Run α} {next : FileSystem → α → Run β} {value : β} :
    (run.andThen next).result = .ok value ↔
      ∃ first, run.result = .ok first ∧ (next run.fs first).result = .ok value := by
  cases hresult : run.result with
  | error failure => simp [andThen, hresult]
  | ok first => simp [andThen, hresult]

/-- A sequence succeeds if both parts do, where there is nothing to say about the success of the
first. -/
theorem andThen_unit_eq_ok_iff {run : Run Unit} {next : FileSystem → Unit → Run β} {value : β} :
    (run.andThen next).result = .ok value ↔
      run.result = .ok () ∧ (next run.fs ()).result = .ok value := by
  rw [andThen_eq_ok_iff]
  constructor
  · rintro ⟨_, hfirst, hnext⟩
    exact ⟨hfirst, hnext⟩
  · rintro ⟨hfirst, hnext⟩
    exact ⟨(), hfirst, hnext⟩

/-- Behind a success, the second part of a sequence has the last word on the files. -/
theorem fs_andThen {run : Run α} {first : α} (h : run.result = .ok first)
    (next : FileSystem → α → Run β) : (run.andThen next).fs = (next run.fs first).fs := by
  rw [andThen, h]

/-- Handing over a value at the end leaves an activity as it is. -/
theorem andThen_value (run : Run Unit) (value : α) :
    (run.andThen fun fs _ => .pure fs value) =
      ⟨run.fs, run.events, run.requests, run.result.map fun _ => value⟩ := by
  rw [andThen]
  split
  · next hresult => rw [hresult]; rfl
  · next hresult =>
    rw [hresult]
    simp only [pure, List.append_nil]
    rfl

end Run

/-! ### Steps -/

/-- Steps succeed if the first one does, and the others do behind it. -/
theorem performAll_cons_eq_ok_iff {fs : FileSystem} {step : Step} {steps : List Step} :
    (performAll fs (step :: steps)).result = .ok () ↔
      (step.perform fs).result = .ok () ∧
        (performAll (step.perform fs).fs steps).result = .ok () := by
  rw [performAll, Run.andThen_unit_eq_ok_iff]

/-- Steps in two parts succeed if the first part does, and the second does behind it. -/
theorem performAll_append_eq_ok_iff {fs : FileSystem} {first second : List Step} :
    (performAll fs (first ++ second)).result = .ok () ↔
      (performAll fs first).result = .ok () ∧
        (performAll (performAll fs first).fs second).result = .ok () := by
  rw [performAll_append, Run.andThen_unit_eq_ok_iff]

/-- The files behind steps in two parts are those behind the second part, if the first succeeds. -/
theorem fs_performAll_append {fs : FileSystem} {first second : List Step}
    (h : (performAll fs first).result = .ok ()) :
    (performAll fs (first ++ second)).fs = (performAll (performAll fs first).fs second).fs := by
  rw [performAll_append, Run.fs_andThen h]

/-- A write that succeeds is a write to the file system. -/
theorem write_of_perform {fs : FileSystem} {kind : OutputKind} {path : Path} {content : Text}
    (h : ((Step.write kind path content).perform fs).result = .ok ()) :
    fs.write path (.text content) = .ok ((Step.write kind path content).perform fs).fs := by
  cases hwrite : fs.write path (.text content) with
  | error e => simp [Step.perform, hwrite, Run.afterEvent, Run.fail] at h
  | ok later => simp [Step.perform, hwrite, Run.afterEvent, Run.pure]

/-! ### Guides -/

/-- How files come to be generated from a guide: it lies below the root, it can be read and
published, and its directives name a place. -/
structure Generation (publisher : Publisher) (settings : Settings) (fs : FileSystem)
    (path : Path) where
  file : GuideFile
  content : Text
  publication : Publication
  place : Path
  isGuide : path.extension? = some "kt".toList
  found : GuideFile.ofPath? settings.sources path = some file
  read : fs.read path = .ok content
  published : publisher (Text.unifyLineEnds content) file.toNamespace.package
    (settings.rootUrl.map fun base => .ofGuide base file) = .ok publication
  placed : publishPlace? publication.directives = some place

namespace Generation

variable {publisher : Publisher} {settings : Settings} {fs : FileSystem} {path : Path}

/-- What has to be done to generate the files. -/
def plan (g : Generation publisher settings fs path) : Plan :=
  .ofPublication settings g.file g.publication g.place

end Generation

/-- Writing a publication that succeeds has carried out its plan. -/
theorem exists_place_of_writePublication {settings : Settings} {fs : FileSystem} {file : GuideFile}
    {publication : Publication} {outputs : Outputs}
    (h : (writePublication settings fs file publication).result = .ok outputs) :
    ∃ place, publishPlace? publication.directives = some place ∧
      (performAll fs (Plan.ofPublication settings file publication place).steps).result = .ok () ∧
      outputs = (Plan.ofPublication settings file publication place).outputs ∧
      (writePublication settings fs file publication).fs =
        (performAll fs (Plan.ofPublication settings file publication place).steps).fs := by
  unfold writePublication at h ⊢
  cases hplace : publishPlace? publication.directives with
  | none => simp [hplace, Run.fail] at h
  | some place =>
      simp only [hplace] at h ⊢
      obtain ⟨⟨⟩, hsteps, houtputs⟩ := Run.andThen_eq_ok_iff.1 h
      exact ⟨place, rfl, hsteps, (Except.ok.inj houtputs).symm, Run.fs_andThen hsteps _⟩

/-- A guide that is generated has performed the steps of its plan, and the files of the plan are its
files. -/
theorem exists_generation_of_guide {publisher : Publisher} {settings : Settings} {fs : FileSystem}
    {path : Path} {outputs : Outputs} (hguide : path.extension? = some "kt".toList)
    (h : (processGuide publisher settings fs path).result = .ok (.generated outputs)) :
    ∃ g : Generation publisher settings fs path,
      (performAll fs g.plan.steps).result = .ok () ∧ outputs = g.plan.outputs ∧
      (processGuide publisher settings fs path).fs = (performAll fs g.plan.steps).fs := by
  unfold processGuide at h ⊢
  cases hfile : GuideFile.ofPath? settings.sources path with
  | none => simp [hfile, Run.fail] at h
  | some file =>
      cases hread : fs.read path with
      | error e => simp [hfile, hread, Run.fail] at h
      | ok content =>
          cases hpublish : publisher (Text.unifyLineEnds content) file.toNamespace.package
              (settings.rootUrl.map fun base => .ofGuide base file) with
          | error rejection =>
              simp [hfile, hread, requestFor, hpublish, Run.afterRequest, Run.afterEvent,
                Run.pure] at h
          | ok publication =>
              simp only [hfile, hread, requestFor, hpublish, Run.afterRequest] at h ⊢
              obtain ⟨written, hwritten, hresult⟩ := Run.andThen_eq_ok_iff.1 h
              obtain rfl : written = outputs := by simpa [Run.pure] using hresult
              obtain ⟨place, hplace, hsteps, houtputs, hfs⟩ :=
                exists_place_of_writePublication hwritten
              rw [Run.fs_andThen hwritten]
              exact ⟨⟨file, content, publication, place, hguide, hfile, hread, hpublish, hplace⟩,
                hsteps, houtputs, hfs⟩

/-- **What is behind generated files**: a plan that has been carried out. -/
theorem exists_generation {publisher : Publisher} {settings : Settings} {fs : FileSystem}
    {path : Path} {outputs : Outputs}
    (h : (processFile publisher settings fs path).result = .ok (.generated outputs)) :
    ∃ g : Generation publisher settings fs path,
      (performAll fs g.plan.steps).result = .ok () ∧ outputs = g.plan.outputs ∧
      (processFile publisher settings fs path).fs = (performAll fs g.plan.steps).fs := by
  unfold processFile at h ⊢
  cases hformat : Format.ofPath? path with
  | none => simp [hformat, Run.afterEvent, Run.pure] at h
  | some format =>
      cases format with
      | legacyMarkdown => simp [hformat, Run.fail] at h
      | kotlin =>
          simp only [hformat] at h ⊢
          exact exists_generation_of_guide (Format.ofPath?_eq_kotlin_iff.1 hformat) h

end Guidebook
