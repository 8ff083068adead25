import Guidebook.Proofs.Batch.Account

/-!
# The Chronicle of a Run

The log of a run and its report are made in different places: files are announced before they are
written, a guide is entered into the report once it is done with, and the run can be stopped between
the two. What is announced is right all the same, wherever a run stops.

A run is followed by the steps of the guides that it comes to. It leaves the files that the steps
leave, announces the files that they announce, and fails where they do. So the announced files are
those that have been written, but for the last one if its write is what has stopped the run.

## Main results

* `Progress.events`: what is announced of steps, as far as they get.
* `follows_processAll`: **a run does what its steps do**, and announces the same.
* `exists_chronicle`: **the chronicle of a run**, be it successful or not.
-/

namespace Guidebook

/-! ### Events at a level -/

/-- What an activity reports at a level. -/
def Run.eventsAt {α : Type} (level : Event.Level) (run : Run α) : List Event :=
  run.events.filter (·.level = level)

/-- The announcement of the file that a step writes, if it writes one. -/
def Step.announcement? : Step → Option Event
  | .ensure _ => none
  | .write kind path _ => some (.writing kind path)

/-- A file is announced by the event of the step that writes it. -/
theorem Step.event_of_announcement? {step : Step} {event : Event}
    (h : step.announcement? = some event) : step.event = event := by
  cases step with
  | ensure directory => cases h
  | write kind path content => exact Option.some.inj h

/-- Of the events of steps, the ones for information are the announcements of files. -/
theorem filter_info_map_event (steps : List Step) :
    (steps.map Step.event).filter (·.level = .info) = steps.filterMap Step.announcement? := by
  induction steps with
  | nil => rfl
  | cons step steps ih =>
      cases step with
      | ensure directory => exact ih
      | write kind path content => exact congrArg (Event.writing kind path :: ·) ih

/-- Announcements of files are all for information. -/
theorem filter_info_announcements (steps : List Step) :
    (steps.filterMap Step.announcement?).filter (·.level = .info) =
      steps.filterMap Step.announcement? := by
  refine List.filter_eq_self.2 fun event hevent => ?_
  obtain ⟨step, -, hstep⟩ := List.mem_filterMap.1 hevent
  cases step with
  | ensure directory => cases hstep
  | write kind path content =>
      obtain rfl := Option.some.inj hstep
      rfl

/-- No event of a step is an error. -/
theorem filter_error_map_event (steps : List Step) :
    (steps.map Step.event).filter (·.level = .error) = [] := by
  refine List.filter_eq_nil_iff.2 fun event hevent => ?_
  obtain ⟨step, -, rfl⟩ := List.mem_map.1 hevent
  cases step <;> exact Bool.false_ne_true

/-- No announcement of a file is an error. -/
theorem filter_error_announcements (steps : List Step) :
    (steps.filterMap Step.announcement?).filter (·.level = .error) = [] := by
  rw [← filter_info_announcements, List.filter_filter]
  refine List.filter_eq_nil_iff.2 fun event _ => ?_
  cases event.level <;> exact Bool.false_ne_true

/-! ### How far steps get -/

/-- How far steps get: those that are done have succeeded, and the one behind them has failed, if
they are not all. -/
inductive Progress (fs : FileSystem) (steps : List Step) : List Step → Option Step → Prop
  | all (completed : (performAll fs steps).result = .ok ()) : Progress fs steps steps none
  | upTo {done after : List Step} {step : Step} {e : IoError}
      (split : steps = done ++ step :: after)
      (completed : (performAll fs done).result = .ok ())
      (failed : (step.perform (performAll fs done).fs).result = .error (.io e)) :
      Progress fs steps done (some step)

section Steps

variable {fs : FileSystem} {steps done : List Step} {failed : Option Step}

/-- **However steps end**, they get as far as all of them, or up to one that fails. -/
theorem exists_progress (fs : FileSystem) (steps : List Step) :
    ∃ done failed, Progress fs steps done failed := by
  cases h : (performAll fs steps).result with
  | ok value => exact ⟨steps, none, .all h⟩
  | error failure =>
      obtain ⟨done, step, after, hsplit, hdone, hstep, -⟩ := exists_failed_step h
      obtain ⟨⟨e, rfl⟩, -⟩ := change_of_perform_error hstep
      exact ⟨done, some step, .upTo hsplit hdone hstep⟩

/-- A step that fails has been announced if it would have written a file. -/
theorem events_perform_error {step : Step} {failure : Failure}
    (h : (step.perform fs).result = .error failure) :
    (step.perform fs).events = [step].filterMap Step.announcement? := by
  cases step with
  | ensure directory =>
      rw [perform_ensure] at h ⊢
      split at h
      · cases h
      · rfl
  | write kind path content =>
      rw [Step.perform]
      split <;> rfl

/-- To carry out one step is to perform it. -/
theorem performAll_singleton (fs : FileSystem) (step : Step) :
    performAll fs [step] = step.perform fs :=
  Run.andThen_pure _

/-- A step hands nothing to publishers. -/
theorem requests_perform (fs : FileSystem) (step : Step) : (step.perform fs).requests = [] := by
  cases step with
  | ensure directory =>
      rw [perform_ensure]
      split <;> rfl
  | write kind path content =>
      rw [Step.perform]
      split <;> rfl

/-- Steps hand nothing to publishers. -/
theorem requests_performAll (fs : FileSystem) (steps : List Step) :
    (performAll fs steps).requests = [] := by
  induction steps generalizing fs with
  | nil => rfl
  | cons step steps ih =>
      rw [performAll, Run.andThen]
      split
      · exact requests_perform fs step
      · simp only [requests_perform, ih, List.append_nil]

/-- Behind a step that fails, nothing is done. -/
theorem performAll_of_failed {step : Step} {e : IoError} (after : List Step)
    (hdone : (performAll fs done).result = .ok ())
    (hstep : (step.perform (performAll fs done).fs).result = .error (.io e)) :
    performAll fs (done ++ step :: after) = performAll fs (done ++ [step]) := by
  have hfail : ∀ more, performAll (performAll fs done).fs (step :: more) =
      step.perform (performAll fs done).fs := by
    intro more
    rw [performAll, Run.andThen, hstep]
    exact congrArg (Run.mk _ _ _) hstep.symm
  rw [performAll_append, performAll_append, Run.andThen, Run.andThen, hdone]
  simp only [hfail]

namespace Progress

/-- The steps have done what those have done that they have got to. -/
theorem performAll_eq (h : Progress fs steps done failed) :
    performAll fs steps = performAll fs (done ++ failed.toList) := by
  cases h with
  | all completed => rw [Option.toList_none, List.append_nil]
  | upTo split completed hfailed =>
      rw [split]
      exact performAll_of_failed _ completed hfailed

/-- The steps that are done have succeeded. -/
theorem completed (h : Progress fs steps done failed) : (performAll fs done).result = .ok () := by
  cases h with
  | all completed => exact completed
  | upTo split completed failed => exact completed

/-- **What is announced** of steps are those that are done, and the file of the one that has
failed. -/
theorem events (h : Progress fs steps done failed) :
    (performAll fs steps).events =
      done.map Step.event ++ failed.toList.filterMap Step.announcement? := by
  rw [h.performAll_eq, performAll_append, Run.andThen, h.completed]
  simp only [events_performAll h.completed]
  cases h with
  | all completed => rfl
  | upTo split completed hfailed =>
      rw [Option.toList_some, performAll_singleton, events_perform_error hfailed]

/-- The steps that are done are some of all, and so is the one that has failed. -/
theorem mem (h : Progress fs steps done failed) {step : Step}
    (hstep : step ∈ done ++ failed.toList) : step ∈ steps := by
  cases h with
  | all completed => simpa using hstep
  | upTo split completed failed =>
      rw [split]
      rcases List.mem_append.1 hstep with hdone | hfailed
      · exact List.mem_append_left _ hdone
      · obtain rfl := List.mem_singleton.1 hfailed
        exact List.mem_append_right _ List.mem_cons_self

/-- What the steps have changed are the files that those have written that are done, and
directories. -/
theorem exists_change (h : Progress fs steps done failed) :
    ∃ made, fs.Change (writesOf done) made (performAll fs steps).fs := by
  have hchange := (performed_performAll h.completed).change
  rw [h.performAll_eq]
  cases h with
  | all completed =>
      rw [Option.toList_none, List.append_nil]
      exact ⟨_, hchange⟩
  | upTo split completed hfailed =>
      rw [Option.toList_some, fs_performAll_append completed, performAll_singleton]
      have htogether := hchange.trans (change_of_perform_error hfailed).2
      rw [List.append_nil] at htogether
      exact ⟨_, htogether⟩

/-- What has been written by the steps that are done is found where they have written it. -/
theorem locate (h : Progress fs steps done failed) {w : Path × Text} (hw : w ∈ writesOf done) :
    (performAll fs steps).fs.locate w.1 = .ok (w.1.resolve fs.here) := by
  have hwritten := (performed_performAll h.completed).written w hw
  rw [h.performAll_eq]
  cases h with
  | all completed =>
      rw [Option.toList_none, List.append_nil]
      exact hwritten
  | upTo split completed hfailed =>
      rw [Option.toList_some, fs_performAll_append completed, performAll_singleton]
      exact FileSystem.locate_of_grows (change_of_perform_error hfailed).2.keeps.toGrows hwritten

/-- Where a file has been written is what has been written there last. -/
theorem exists_read (h : Progress fs steps done failed) {w : Path × Text} (hw : w ∈ writesOf done) :
    ∃ content, lastWrite? fs.here (w.1.resolve fs.here) (writesOf done) = some content ∧
      (performAll fs steps).fs.read w.1 = .ok content := by
  obtain ⟨made, hchange⟩ := h.exists_change
  obtain ⟨content, hcontent⟩ := exists_lastWrite? fs.here hw
  exact ⟨content, hcontent, FileSystem.read_ok_iff.2
    ⟨_, h.locate hw, (hchange.written _ content hcontent).2⟩⟩

/-- The step that has failed is one that an operation on files has failed for. -/
theorem exists_error {step : Step} (h : Progress fs steps done (some step)) :
    ∃ e, (step.perform (performAll fs done).fs).result = .error (.io e) ∧
      (performAll fs steps).result = .error (.io e) := by
  cases h with
  | upTo split completed failed =>
      refine ⟨_, failed, ?_⟩
      rw [split, performAll_of_failed _ completed failed, performAll_append, Run.andThen, completed]
      exact (congrArg Run.result (performAll_singleton _ step)).trans failed

end Progress

/-- Steps report no errors. -/
theorem eventsAt_error_performAll (fs : FileSystem) (steps : List Step) :
    (performAll fs steps).eventsAt .error = [] := by
  obtain ⟨done, failed, hprogress⟩ := exists_progress fs steps
  rw [Run.eventsAt, hprogress.events, List.filter_append, filter_error_map_event,
    filter_error_announcements, List.append_nil]

end Steps

/-! ### Candidates -/

/-- The guide that the publisher rejects for a candidate, and why, if it does. -/
def rejectionFor? (publisher : Publisher) (settings : Settings) (fs : FileSystem) (path : Path) :
    Option (GuideFile × Rejection) :=
  match Format.ofPath? path, GuideFile.ofPath? settings.sources path, fs.read path with
  | some .kotlin, some file, .ok content =>
    match publisher.ofGuide settings file content with
    | .error rejection => some (file, rejection)
    | .ok _ => none
  | _, _, _ => none

/-- What the publisher answers to a request, if it rejects it. -/
def Publisher.rejection? (publisher : Publisher) (request : Request) : Option Rejection :=
  match publisher request.content request.package request.link with
  | .error rejection => some rejection
  | .ok _ => none

/-- An activity that does to the files what steps do, announces the same, and fails where they
do. -/
structure Follows {α : Type} (run : Run α) (steps : Run Unit) : Prop where
  left : run.fs = steps.fs
  infos : run.eventsAt .info = steps.eventsAt .info
  failed : ∀ failure, steps.result = .error failure → run.result = .error failure

namespace Follows

variable {α β : Type} {run : Run α} {fs : FileSystem} {first second : List Step}

/-- An activity without steps leaves the files as they are, and announces nothing. -/
theorem of_nothing (hfs : run.fs = fs) (hinfos : run.eventsAt .info = []) :
    Follows run (performAll fs []) where
  left := hfs
  infos := hinfos
  failed := by rintro failure ⟨⟩

/-- Where the activity goes on, the steps have succeeded. -/
theorem completed {value : α} (h : Follows run (performAll fs first))
    (hok : run.result = .ok value) : (performAll fs first).result = .ok () := by
  cases hsteps : (performAll fs first).result with
  | ok value => rfl
  | error failure =>
      rw [h.failed failure hsteps] at hok
      cases hok

/-- An activity that goes on follows the steps of both its parts. -/
theorem andThen_of_ok {next : FileSystem → α → Run β} {value : α}
    (h : Follows run (performAll fs first)) (hok : run.result = .ok value)
    (hnext : Follows (next run.fs value) (performAll run.fs second)) :
    Follows (run.andThen next) (performAll fs (first ++ second)) := by
  have hcompleted := h.completed hok
  rw [h.left] at hnext
  rw [performAll_append, Run.andThen, Run.andThen, hok, hcompleted, h.left]
  exact {
    left := hnext.left
    infos := by
      have hinfos := h.infos
      have hmore := hnext.infos
      simp only [Run.eventsAt, List.filter_append] at hinfos hmore ⊢
      rw [hinfos, hmore]
    failed := hnext.failed }

/-- An activity that is stopped follows the steps up to there. -/
theorem andThen_of_error {next : FileSystem → α → Run β} {failure : Failure} {steps : Run Unit}
    (h : Follows run steps) (herror : run.result = .error failure) :
    Follows (run.andThen next) steps := by
  rw [Run.andThen, herror]
  exact {
    left := h.left
    infos := h.infos
    failed := fun other hother =>
      congrArg Except.error (Except.error.inj (herror.symm.trans (h.failed other hother))) }

end Follows

/-- What is on record of a candidate: it has followed its steps, and if the publisher has rejected
it, an event says so, and so does the report. -/
structure Recorded (publisher : Publisher) (settings : Settings) (fs : FileSystem) (path : Path) :
    Prop where
  follows : Follows (processFile publisher settings fs path)
    (performAll fs (stepsFor publisher settings fs path))
  errors : (processFile publisher settings fs path).eventsAt .error =
    (rejectionFor? publisher settings fs path).toList.map fun rejected =>
      .rejected rejected.1.relativePath.slashed rejected.2
  answered : (processFile publisher settings fs path).requests.filterMap publisher.rejection? =
    (rejectionFor? publisher settings fs path).toList.map Prod.snd
  skipped : ∀ outcome, (processFile publisher settings fs path).result = .ok outcome →
    (Report.ofCandidate settings path outcome).skipped =
      (rejectionFor? publisher settings fs path).toList.map fun rejected =>
        ⟨rejected.1.relativePath, rejected.2⟩

section Candidates

variable {publisher : Publisher} {settings : Settings} {fs : FileSystem} {path : Path}
  {file : GuideFile} {content : Text}

/-- There is nothing to do for what cannot be read as a guide. -/
theorem nothing_of_unread (h : ∀ file content, path.extension? = some "kt".toList →
      GuideFile.ofPath? settings.sources path = some file → fs.read path ≠ .ok content) :
    stepsFor publisher settings fs path = [] ∧ rejectionFor? publisher settings fs path = none := by
  refine ⟨?_, ?_⟩
  · rw [stepsFor]
    split
    · next hformat hfound hread =>
      exact absurd hread (h _ _ (Format.ofPath?_eq_kotlin_iff.1 hformat) hfound)
    · rfl
  · rw [rejectionFor?]
    split
    · next hformat hfound hread =>
      exact absurd hread (h _ _ (Format.ofPath?_eq_kotlin_iff.1 hformat) hfound)
    · rfl

/-- What is on record of a candidate for which there is nothing to do. -/
theorem recorded_of_nothing
    (hnothing : stepsFor publisher settings fs path = [] ∧
      rejectionFor? publisher settings fs path = none)
    {run : Run Outcome} (hrun : processFile publisher settings fs path = run)
    (hfs : run.fs = fs) (hinfos : run.eventsAt .info = []) (herrors : run.eventsAt .error = [])
    (hanswered : run.requests.filterMap publisher.rejection? = [])
    (hskipped : ∀ outcome, run.result = .ok outcome → outcome = .ignored) :
    Recorded publisher settings fs path where
  follows := by
    rw [hnothing.1, hrun]
    exact .of_nothing hfs hinfos
  errors := by rw [hnothing.2, hrun, herrors]; rfl
  answered := by rw [hnothing.2, hrun, hanswered]; rfl
  skipped := by
    intro outcome houtcome
    rw [hrun] at houtcome
    obtain rfl := hskipped outcome houtcome
    rw [hnothing.2]
    rfl

/-- A guide that the publisher accepts is not rejected. -/
theorem rejection?_requestFor_of_ok {publication : Publication}
    (h : publisher.ofGuide settings file content = .ok publication) :
    publisher.rejection? (requestFor settings file content) = none := by
  rw [Publisher.ofGuide] at h
  simp only [Publisher.rejection?, h]

/-- A guide that the publisher rejects has one error on record, and nothing else. -/
theorem recorded_of_rejected {rejection : Rejection}
    (hguide : path.extension? = some "kt".toList)
    (hfound : GuideFile.ofPath? settings.sources path = some file)
    (hread : fs.read path = .ok content)
    (hrejected : publisher.ofGuide settings file content = .error rejection) :
    Recorded publisher settings fs path := by
  have hfor : rejectionFor? publisher settings fs path = some (file, rejection) := by
    simp only [rejectionFor?, Format.ofPath?_eq_kotlin_iff.2 hguide, hfound, hread, hrejected]
  have hanswer : publisher.rejection? (requestFor settings file content) = some rejection := by
    rw [Publisher.ofGuide] at hrejected
    simp only [Publisher.rejection?, hrejected]
  have hprocess := processFile_of_rejected hguide hfound hread hrejected
  exact {
    follows := by
      rw [stepsFor_of_rejected hguide hfound hread hrejected, hprocess]
      exact .of_nothing rfl rfl
    errors := by rw [hfor, hprocess]; rfl
    answered := by
      rw [hfor, hprocess]
      exact List.filterMap_cons_some hanswer
    skipped := by
      intro outcome houtcome
      rw [hprocess] at houtcome
      obtain rfl := Except.ok.inj houtcome
      rw [hfor, Report.ofCandidate, GuideFile.relativeTo?_of_ofPath? hfound]
      rfl }

/-- A guide that names no place has nothing on record. -/
theorem recorded_of_unplaced {publication : Publication}
    (hguide : path.extension? = some "kt".toList)
    (hfound : GuideFile.ofPath? settings.sources path = some file)
    (hread : fs.read path = .ok content)
    (hpublished : publisher.ofGuide settings file content = .ok publication)
    (hplace : publishPlace? publication.directives = none) :
    Recorded publisher settings fs path := by
  have hnothing : stepsFor publisher settings fs path = [] ∧
      rejectionFor? publisher settings fs path = none := by
    simp only [stepsFor, rejectionFor?, Format.ofPath?_eq_kotlin_iff.2 hguide, hfound, hread,
      hpublished, hplace, and_self]
  exact recorded_of_nothing hnothing
    (processFile_of_unplaced hguide hfound hread hpublished hplace) rfl rfl rfl
    (List.filterMap_cons_none (rejection?_requestFor_of_ok hpublished)) (by rintro outcome ⟨⟩)

/-- A guide that is turned into files has its steps on record, as far as they get. -/
theorem recorded_of_generation (g : Generation publisher settings fs path) :
    Recorded publisher settings fs path := by
  have hpublished : publisher.ofGuide settings g.file g.content = .ok g.publication := g.published
  have hfor : rejectionFor? publisher settings fs path = none := by
    simp only [rejectionFor?, Format.ofPath?_eq_kotlin_iff.2 g.isGuide, g.found, g.read, hpublished]
  have hprocess := processFile_eq_performAll g
  rw [← stepsFor_of_generation g] at hprocess
  generalize g.plan.outputs = outputs at hprocess
  exact {
    follows := by
      rw [hprocess]
      exact ⟨rfl, rfl, fun failure hfailed => congrArg (Except.map _) hfailed⟩
    errors := by
      rw [hprocess, hfor]
      exact eventsAt_error_performAll fs _
    answered := by
      rw [hprocess, hfor, requests_performAll]
      exact List.filterMap_cons_none (rejection?_requestFor_of_ok hpublished)
    skipped := by
      intro outcome houtcome
      rw [hprocess] at houtcome
      cases hsteps : (performAll fs (stepsFor publisher settings fs path)).result with
      | error failure => rw [hsteps] at houtcome; cases houtcome
      | ok value =>
          rw [hsteps] at houtcome
          obtain rfl := Except.ok.inj houtcome
          rw [hfor]
          rfl }

/-- **What is on record of a candidate.** -/
theorem recorded_processFile (publisher : Publisher) (settings : Settings) (fs : FileSystem)
    (path : Path) : Recorded publisher settings fs path := by
  by_cases hguide : path.extension? = some "kt".toList
  · cases hfound : GuideFile.ofPath? settings.sources path with
    | none =>
        have hnothing : stepsFor publisher settings fs path = [] ∧
            rejectionFor? publisher settings fs path = none := by
          refine nothing_of_unread fun file content _ hthere => ?_
          cases hfound.symm.trans hthere
        exact recorded_of_nothing hnothing (processFile_of_outside hguide hfound) rfl rfl rfl rfl
          (by rintro outcome ⟨⟩)
    | some file =>
        cases hread : fs.read path with
        | error e =>
            have hnothing : stepsFor publisher settings fs path = [] ∧
                rejectionFor? publisher settings fs path = none := by
              refine nothing_of_unread fun file content _ _ hthere => ?_
              cases hread.symm.trans hthere
            exact recorded_of_nothing hnothing (processFile_of_unreadable hguide hfound hread) rfl
              rfl rfl rfl (by rintro outcome ⟨⟩)
        | ok content =>
            cases hpublished : publisher.ofGuide settings file content with
            | error rejection => exact recorded_of_rejected hguide hfound hread hpublished
            | ok publication =>
                cases hplace : publishPlace? publication.directives with
                | none => exact recorded_of_unplaced hguide hfound hread hpublished hplace
                | some place =>
                    exact recorded_of_generation
                      ⟨file, content, publication, place, hguide, hfound, hread, hpublished, hplace⟩
  · have hnothing : stepsFor publisher settings fs path = [] ∧
        rejectionFor? publisher settings fs path = none :=
      nothing_of_unread fun file content hthere => absurd hthere hguide
    by_cases hlegacy : path.extension? = some "md".toList
    · exact recorded_of_nothing hnothing (processFile_of_legacy hlegacy) rfl rfl rfl rfl
        (by rintro outcome ⟨⟩)
    · exact recorded_of_nothing hnothing (processFile_of_ignored hlegacy hguide) rfl rfl rfl rfl
        fun outcome houtcome => (Except.ok.inj houtcome).symm

end Candidates

/-! ### Runs -/

/-- The candidates that a run comes to, each with the files that it finds there. -/
def reached (publisher : Publisher) (settings : Settings) :
    FileSystem → List Path → List (FileSystem × Path)
  | _, [] => []
  | fs, path :: paths =>
    (fs, path) ::
      match (processFile publisher settings fs path).result with
      | .error _ => []
      | .ok _ => reached publisher settings (processFile publisher settings fs path).fs paths

/-- The steps of the guides that a run comes to. -/
def stepsReached (publisher : Publisher) (settings : Settings) (fs : FileSystem)
    (paths : List Path) : List Step :=
  (reached publisher settings fs paths).flatMap fun candidate =>
    stepsFor publisher settings candidate.1 candidate.2

/-- The guides that the publisher rejects in a run, and why. -/
def rejectedIn (publisher : Publisher) (settings : Settings) (fs : FileSystem)
    (paths : List Path) : List (GuideFile × Rejection) :=
  (reached publisher settings fs paths).filterMap fun candidate =>
    rejectionFor? publisher settings candidate.1 candidate.2

section Runs

variable {publisher : Publisher} {settings : Settings} {fs : FileSystem} {path : Path}
  {paths : List Path}

/-- Behind a candidate that succeeds, the run comes to the others with the files that this one has
left. -/
theorem reached_cons_of_ok {outcome : Outcome}
    (h : (processFile publisher settings fs path).result = .ok outcome) (paths : List Path) :
    reached publisher settings fs (path :: paths) =
      (fs, path) ::
        reached publisher settings (processFile publisher settings fs path).fs paths := by
  rw [reached, h]

/-- A run comes to no candidate behind one that fails. -/
theorem reached_cons_of_error {failure : Failure}
    (h : (processFile publisher settings fs path).result = .error failure) (paths : List Path) :
    reached publisher settings fs (path :: paths) = [(fs, path)] := by
  rw [reached, h]

/-- **A run does what its steps do**, and announces the same. -/
theorem follows_processAll (publisher : Publisher) (settings : Settings) (fs : FileSystem)
    (before : Report) (paths : List Path) :
    Follows (processAll publisher settings fs before paths)
      (performAll fs (stepsReached publisher settings fs paths)) := by
  induction paths generalizing fs before with
  | nil => exact .of_nothing rfl rfl
  | cons path paths ih =>
      have hpath := (recorded_processFile publisher settings fs path).follows
      rw [processAll, stepsReached]
      cases h : (processFile publisher settings fs path).result with
      | error failure =>
          rw [reached_cons_of_error h, List.flatMap_singleton]
          exact hpath.andThen_of_error h
      | ok outcome =>
          rw [reached_cons_of_ok h, List.flatMap_cons]
          exact hpath.andThen_of_ok h (ih _ _)

/-- The rejected guides of a run, taken candidate by candidate. -/
theorem map_rejectedIn {α : Type} (f : GuideFile × Rejection → α) (fs : FileSystem)
    (paths : List Path) : (rejectedIn publisher settings fs paths).map f =
      (reached publisher settings fs paths).flatMap fun candidate =>
        (rejectionFor? publisher settings candidate.1 candidate.2).toList.map f := by
  rw [rejectedIn, List.filterMap_eq_flatMap_toList, List.map_flatMap]

/-- The events and the requests of a run are those of the candidates that it comes to, in their
order. -/
theorem events_processAll (publisher : Publisher) (settings : Settings) (fs : FileSystem)
    (before : Report) (paths : List Path) :
    (processAll publisher settings fs before paths).events =
        (reached publisher settings fs paths).flatMap (fun candidate =>
          (processFile publisher settings candidate.1 candidate.2).events) ∧
      (processAll publisher settings fs before paths).requests =
        (reached publisher settings fs paths).flatMap fun candidate =>
          (processFile publisher settings candidate.1 candidate.2).requests := by
  induction paths generalizing fs before with
  | nil => exact ⟨rfl, rfl⟩
  | cons path paths ih =>
      rw [processAll, Run.andThen]
      cases h : (processFile publisher settings fs path).result with
      | error failure =>
          rw [reached_cons_of_error h, List.flatMap_singleton, List.flatMap_singleton]
          exact ⟨rfl, rfl⟩
      | ok outcome =>
          obtain ⟨hevents, hrequests⟩ := ih (processFile publisher settings fs path).fs
            (before.record ((path.relativeTo? settings.sources).getD path) outcome)
          rw [reached_cons_of_ok h, List.flatMap_cons, List.flatMap_cons, ← hevents, ← hrequests]
          exact ⟨rfl, rfl⟩

/-- The errors of a run are its rejected guides. -/
theorem eventsAt_error_processAll (before : Report) :
    (processAll publisher settings fs before paths).eventsAt .error =
      (rejectedIn publisher settings fs paths).map fun rejected =>
        .rejected rejected.1.relativePath.slashed rejected.2 := by
  rw [Run.eventsAt, (events_processAll publisher settings fs before paths).1, List.filter_flatMap,
    map_rejectedIn]
  exact congrArg (List.flatMap · _) (funext fun candidate =>
    (recorded_processFile publisher settings candidate.1 candidate.2).errors)

/-- Of the requests of a run, those that the publisher answers with a rejection are those of the
guides that are rejected. -/
theorem rejections_processAll (before : Report) :
    (processAll publisher settings fs before paths).requests.filterMap publisher.rejection? =
      (rejectedIn publisher settings fs paths).map Prod.snd := by
  rw [(events_processAll publisher settings fs before paths).2, List.filterMap_flatMap,
    map_rejectedIn]
  exact congrArg (List.flatMap · _) (funext fun candidate =>
    (recorded_processFile publisher settings candidate.1 candidate.2).answered)

/-- The skipped guides of a report are those that the publisher has rejected. -/
theorem skipped_processAll {before report : Report}
    (h : (processAll publisher settings fs before paths).result = .ok report) :
    report.skipped = before.skipped ++ (rejectedIn publisher settings fs paths).map fun rejected =>
      ⟨rejected.1.relativePath, rejected.2⟩ := by
  induction paths generalizing fs before with
  | nil =>
      obtain rfl := Except.ok.inj h
      exact (List.append_nil _).symm
  | cons path paths ih =>
      obtain ⟨outcome, hpath, hmore⟩ := Run.andThen_eq_ok_iff.1 h
      have hskipped := (recorded_processFile publisher settings fs path).skipped outcome hpath
      simp only [Report.record_eq] at hmore
      rw [ih hmore, Report.skipped_append, hskipped, List.append_assoc, map_rejectedIn,
        map_rejectedIn, reached_cons_of_ok hpath, List.flatMap_cons]

end Runs

/-! ### The chronicle -/

/-- The event that ends a run, if nothing has stopped it. -/
def completions : Except Failure Report → List Event
  | .error _ => []
  | .ok report => [report.completion]

/-- To the events of its candidates, a run adds that of its completion, if it succeeds. It adds no
request. -/
theorem events_generate (publisher : Publisher) (settings : Settings) (fs : FileSystem)
    (paths : List Path) :
    (generate publisher settings fs paths).events =
        (processAll publisher settings fs .empty paths).events ++
          completions (generate publisher settings fs paths).result ∧
      (generate publisher settings fs paths).requests =
        (processAll publisher settings fs .empty paths).requests := by
  rw [result_generate, generate, Run.andThen]
  split
  · next h => rw [h]; exact ⟨(List.append_nil _).symm, rfl⟩
  · next h => rw [h]; exact ⟨rfl, List.append_nil _⟩

/-- What the events of a run say of it. The steps of the guides that it comes to are those that are
`done`, then the one that has `failed`, if any has, and others that it has not begun. -/
structure Chronicle (publisher : Publisher) (settings : Settings) (fs : FileSystem)
    (paths : List Path) (done : List Step) (failed : Option Step) : Prop where
  progress : Progress fs (stepsReached publisher settings fs paths) done failed
  /-- The files are those that the steps leave. -/
  left : (generate publisher settings fs paths).fs = (performAll fs (done ++ failed.toList)).fs
  /-- What is announced are the files that have been written, in order, then the one that has not,
  if that has stopped the run, and then the counts of the report, if nothing has. -/
  infos : (generate publisher settings fs paths).eventsAt .info =
    done.filterMap Step.announcement? ++ failed.toList.filterMap Step.announcement? ++
      completions (generate publisher settings fs paths).result
  /-- A step that fails stops the run. -/
  stopped : ∀ step ∈ failed, ∃ e, (step.perform (performAll fs done).fs).result = .error (.io e) ∧
    (generate publisher settings fs paths).result = .error (.io e)
  /-- Where a file has been written is what has been written there last. -/
  written : ∀ w ∈ writesOf done,
    (generate publisher settings fs paths).fs.locate w.1 = .ok (w.1.resolve fs.here) ∧
      ∃ content, lastWrite? fs.here (w.1.resolve fs.here) (writesOf done) = some content ∧
        (generate publisher settings fs paths).fs.read w.1 = .ok content
  /-- No other file is new, or has another content. -/
  changed : ∀ place content, (fs.tree.entryAt? place = some (.file content) ∨
      (generate publisher settings fs paths).fs.tree.entryAt? place = some (.file content)) →
    (generate publisher settings fs paths).fs.tree.entryAt? place ≠ fs.tree.entryAt? place →
    ∃ w ∈ writesOf done, w.1.resolve fs.here = place
  /-- The errors are the guides that the publisher has rejected, in order. -/
  errors : (generate publisher settings fs paths).eventsAt .error =
    (rejectedIn publisher settings fs paths).map fun rejected =>
      .rejected rejected.1.relativePath.slashed rejected.2
  answered : (generate publisher settings fs paths).requests.filterMap publisher.rejection? =
    (rejectedIn publisher settings fs paths).map Prod.snd
  skipped : ∀ report, (generate publisher settings fs paths).result = .ok report →
    report.skipped = (rejectedIn publisher settings fs paths).map fun rejected =>
      ⟨rejected.1.relativePath, rejected.2⟩
  /-- The counts are those of the report, and they come last; if the run is stopped, there are
  none. -/
  ended : ∀ report, (generate publisher settings fs paths).result = .ok report →
    (generate publisher settings fs paths).events.getLast? = some report.completion
  complete : ∀ pages runnable exported skipped,
    .complete pages runnable exported skipped ∈ (generate publisher settings fs paths).events ↔
      ∃ report, (generate publisher settings fs paths).result = .ok report ∧
        report.pages.length = pages ∧ report.runnable.length = runnable ∧
        report.exported.length = exported ∧ report.skipped.length = skipped

/-- An announcement is none of the counts. -/
theorem ne_complete_of_announcement {steps : List Step} {event : Event}
    (h : event ∈ steps.filterMap Step.announcement?) (pages runnable exported skipped : Nat) :
    event ≠ .complete pages runnable exported skipped := by
  obtain ⟨step, -, hstep⟩ := List.mem_filterMap.1 h
  cases step with
  | ensure directory => cases hstep
  | write kind path content =>
      rintro rfl
      cases hstep

/-- The counts are announced if and only if nothing has stopped the run. -/
theorem mem_events_iff_of_infos {run : Run Report} {first second : List Step}
    (h : run.eventsAt .info = first.filterMap Step.announcement? ++
      second.filterMap Step.announcement? ++ completions run.result)
    (pages runnable exported skipped : Nat) :
    .complete pages runnable exported skipped ∈ run.events ↔
      ∃ report, run.result = .ok report ∧
        report.pages.length = pages ∧ report.runnable.length = runnable ∧
        report.exported.length = exported ∧ report.skipped.length = skipped := by
  have hinfo : .complete pages runnable exported skipped ∈ run.events ↔
      .complete pages runnable exported skipped ∈ run.eventsAt .info := by
    rw [Run.eventsAt, List.mem_filter]
    exact (and_iff_left rfl).symm
  have hnone : ∀ steps : List Step, .complete pages runnable exported skipped ∉
      steps.filterMap Step.announcement? :=
    fun steps hmem => ne_complete_of_announcement hmem _ _ _ _ rfl
  rw [hinfo, h, List.mem_append, List.mem_append, or_iff_right (not_or.2 ⟨hnone _, hnone _⟩)]
  cases run.result with
  | error failure => simp [completions]
  | ok report => simp [completions, Report.completion, eq_comm]

/-- The completion of a run is an event for information. -/
theorem filter_completions (level : Event.Level) (result : Except Failure Report) :
    (completions result).filter (·.level = level) =
      if level = .info then completions result else [] := by
  cases result <;> cases level <;> rfl

/-- What a run announces are the files of the steps that it gets to, and its end. -/
theorem infos_generate {publisher : Publisher} {settings : Settings} {fs : FileSystem}
    {paths : List Path} {done : List Step} {failed : Option Step}
    (h : Progress fs (stepsReached publisher settings fs paths) done failed) :
    (generate publisher settings fs paths).eventsAt .info =
      done.filterMap Step.announcement? ++ failed.toList.filterMap Step.announcement? ++
        completions (generate publisher settings fs paths).result := by
  have hrun := (follows_processAll publisher settings fs .empty paths).infos
  rw [Run.eventsAt, Run.eventsAt, h.events, List.filter_append, filter_info_map_event,
    filter_info_announcements] at hrun
  rw [Run.eventsAt, (events_generate publisher settings fs paths).1, List.filter_append, hrun,
    filter_completions, if_pos rfl]

/-- The errors of a run are the rejections of guides, each named by its path from their root. -/
theorem errors_generate (publisher : Publisher) (settings : Settings) (fs : FileSystem)
    (paths : List Path) :
    (generate publisher settings fs paths).eventsAt .error =
      (rejectedIn publisher settings fs paths).map fun rejected =>
        .rejected rejected.1.relativePath.slashed rejected.2 := by
  have hrun : (processAll publisher settings fs .empty paths).eventsAt .error = _ :=
    eventsAt_error_processAll .empty
  rw [Run.eventsAt] at hrun
  rw [Run.eventsAt, (events_generate publisher settings fs paths).1, List.filter_append, hrun,
    filter_completions, if_neg (by decide), List.append_nil]

/-- **The chronicle of a run**, be it successful or not. -/
theorem exists_chronicle (publisher : Publisher) (settings : Settings) (fs : FileSystem)
    (paths : List Path) : ∃ done failed, Chronicle publisher settings fs paths done failed := by
  obtain ⟨done, failed, hprogress⟩ := exists_progress fs (stepsReached publisher settings fs paths)
  have hfollows := follows_processAll publisher settings fs .empty paths
  obtain ⟨hevents, hrequests⟩ := events_generate publisher settings fs paths
  have hleft : (generate publisher settings fs paths).fs =
      (performAll fs (stepsReached publisher settings fs paths)).fs := by
    rw [fs_generate, hfollows.left]
  obtain ⟨made, hchange⟩ := hprogress.exists_change
  rw [← hleft] at hchange
  exact ⟨done, failed, {
    progress := hprogress
    left := by rw [hleft, hprogress.performAll_eq]
    infos := infos_generate hprogress
    stopped := by
      rintro step ⟨⟩
      obtain ⟨e, hfailed, hresult⟩ := hprogress.exists_error
      exact ⟨e, hfailed, (result_generate _ _ _ _).trans (hfollows.failed _ hresult)⟩
    written := by
      intro w hw
      rw [hleft]
      exact ⟨hprogress.locate hw, hprogress.exists_read hw⟩
    changed := fun place content hfile hne => hchange.exists_write hfile hne
    errors := errors_generate publisher settings fs paths
    answered := by rw [hrequests, rejections_processAll]
    skipped := by
      intro report hreport
      rw [result_generate] at hreport
      exact skipped_processAll hreport
    ended := by
      intro report hreport
      rw [hevents, hreport]
      exact List.getLast?_concat
    complete := mem_events_iff_of_infos (infos_generate hprogress) }⟩

/-- The page of the second guide would lie where there is a directory with the page of the first. It
is the last file that is announced, and the only one that is not written. -/
example :
    let run := generate Guide.publish .plain
      (.ofGuides [("a.kt".toList, "p.markdown/q".toList), ("b.kt".toList, "p".toList)])
      [⟨"src/a.kt".toList⟩, ⟨"src/b.kt".toList⟩]
    run.result = .error (.io .isADirectory) ∧
      run.eventsAt .info =
        [.writing .page ⟨"pages/p.markdown/q.markdown".toList⟩,
          .writing .runnable ⟨"run/p.markdown/Q000.kt".toList⟩,
          .writing .exported ⟨"out/a000.kt".toList⟩,
          .writing .page ⟨"pages/p.markdown".toList⟩] := by
  decide +kernel

end Guidebook
