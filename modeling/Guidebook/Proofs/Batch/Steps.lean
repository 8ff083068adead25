import Guidebook.Proofs.Batch.Success
import Guidebook.Proofs.FileTree.Change

/-!
# What Steps Do

Steps are carried out in order, as far as it goes. Those that succeed change the file system by
their writes and by directories on the way to those they make sure of, and all these can be reached
afterwards. A step that fails is one that an operation on files has failed for; all before it have
succeeded, and it has written nothing.

Steps that have succeeded succeed again, in any file system that keeps what they have led to, and
then change nothing but by their writes.

## Main results

* `performed_performAll`: **what steps that succeed have done**.
* `exists_failed_step`: how far steps get that fail.
* `performAll_again`: **steps that have succeeded succeed again**.
-/

namespace Guidebook

/-- The file that a step writes, if it writes one: path and content. -/
def Step.write? : Step → Option (Path × Text)
  | .ensure _ => none
  | .write _ path content => some (path, content)

/-- The directory that a step makes sure of, if it does. -/
def Step.directory? : Step → Option Path
  | .ensure directory => some directory
  | .write _ _ _ => none

/-- The event of a step. -/
def Step.event : Step → Event
  | .ensure directory => .ensured directory
  | .write kind path _ => .writing kind path

/-- The files that steps write, in order. -/
def writesOf (steps : List Step) : List (Path × Text) :=
  steps.filterMap Step.write?

/-- The directories that steps make sure of. -/
def directoriesOf (steps : List Step) : List Path :=
  steps.filterMap Step.directory?

/-- The locations on the way to the directories that steps make sure of. -/
def waysOf (here : Location) (steps : List Step) : List Location :=
  (directoriesOf steps).flatMap (·.way here)

/-- The files of steps in two parts are those of the first and then those of the second. -/
theorem writesOf_append (first second : List Step) :
    writesOf (first ++ second) = writesOf first ++ writesOf second :=
  List.filterMap_append

/-- The output directories of steps in two parts are those of the first and then those of the
second. -/
theorem directoriesOf_append (first second : List Step) :
    directoriesOf (first ++ second) = directoriesOf first ++ directoriesOf second :=
  List.filterMap_append

/-- The places on the ways to output directories are those for the first part and then those for the
second. -/
theorem waysOf_append (here : Location) (first second : List Step) :
    waysOf here (first ++ second) = waysOf here first ++ waysOf here second := by
  rw [waysOf, directoriesOf_append, List.flatMap_append]
  rfl

/-! ### Steps that succeed -/

/-- What steps that succeed have done: they have changed the file system, and what they have written
and made sure of can be reached. -/
structure Performed (fs : FileSystem) (steps : List Step) (later : FileSystem) : Prop where
  change : fs.Change (writesOf steps) (waysOf fs.here steps) later
  written : ∀ w ∈ writesOf steps, later.locate w.1 = .ok (w.1.resolve fs.here)
  ensured : ∀ directory ∈ directoriesOf steps, directory.text ≠ [] →
    later.isDirectory directory = true

namespace Performed

/-- Without steps, nothing has been performed. -/
theorem refl (fs : FileSystem) : Performed fs [] fs where
  change := .refl fs _
  written := fun _ hw => absurd hw List.not_mem_nil
  ensured := fun _ hdirectory => absurd hdirectory List.not_mem_nil

/-- Steps that have been performed in two parts have been performed. -/
theorem trans {fs mid later : FileSystem} {first second : List Step} (h : Performed fs first mid)
    (hlater : Performed mid second later) : Performed fs (first ++ second) later where
  change := by
    have hchange := h.change.trans hlater.change
    rwa [h.change.here, ← writesOf_append, ← waysOf_append] at hchange
  written := by
    intro w hw
    rw [writesOf_append, List.mem_append] at hw
    rcases hw with hw | hw
    · exact FileSystem.locate_of_grows hlater.change.keeps.toGrows (h.written w hw)
    · rw [← h.change.here]
      exact hlater.written w hw
  ensured := by
    intro directory hdirectory hne
    rw [directoriesOf_append, List.mem_append] at hdirectory
    rcases hdirectory with hdirectory | hdirectory
    · exact FileSystem.isDirectory_of_grows hlater.change.keeps.toGrows
        (h.ensured directory hdirectory hne)
    · exact hlater.ensured directory hdirectory hne

/-- What has been written to a path last can be read there. -/
theorem exists_read {fs later : FileSystem} {steps : List Step} (h : Performed fs steps later)
    {w : Path × Text} (hw : w ∈ writesOf steps) :
    ∃ content, lastWrite? fs.here (w.1.resolve fs.here) (writesOf steps) = some content ∧
      later.read w.1 = .ok content := by
  obtain ⟨content, hcontent⟩ := exists_lastWrite? fs.here hw
  exact ⟨content, hcontent, FileSystem.read_ok_iff.2
    ⟨_, h.written w hw, (h.change.written _ content hcontent).2⟩⟩

/-- A directory that is new is on the way to one that the steps have made sure of, and that was not
there before. -/
theorem exists_directory {fs later : FileSystem} {steps : List Step} (h : Performed fs steps later)
    {place : Location} (hold : fs.tree.entryAt? place ≠ some .directory)
    (hnew : later.tree.entryAt? place = some .directory) :
    ∃ directory ∈ directoriesOf steps, place ∈ directory.way fs.here ∧
      fs.isDirectory directory = false ∧ later.isDirectory directory = true := by
  obtain ⟨directory, hdirectory, hway⟩ := List.mem_flatMap.1 (h.change.made_of_directory hold hnew)
  obtain ⟨hne, -⟩ := Path.mem_way_iff.1 hway
  refine ⟨directory, hdirectory, hway, ?_, h.ensured directory hdirectory hne⟩
  rw [Bool.eq_false_iff]
  exact fun hthere => hold ((FileSystem.isDirectory_iff.1 hthere).2.2 place hway)

end Performed

/-- To ensure a directory is to make it with those above it; the event comes only if that
succeeds. -/
theorem perform_ensure (fs : FileSystem) (directory : Path) :
    (Step.ensure directory).perform fs =
      match (fs.ensureDirectories directory).error? with
      | none => .afterEvent (.ensured directory) (.pure (fs.ensureDirectories directory).fs ())
      | some e => .fail (fs.ensureDirectories directory).fs (.io e) := by
  rw [Step.perform]
  cases fs.ensureDirectories directory with
  | mk later error? => cases error? <;> rfl

/-- The files behind it are those in which the directory has been made, as far as that goes. -/
theorem fs_perform_ensure (fs : FileSystem) (directory : Path) :
    ((Step.ensure directory).perform fs).fs = (fs.ensureDirectories directory).fs := by
  rw [perform_ensure]
  split <;> rfl

/-- Making sure of a directory succeeds if the directory can be made. -/
theorem perform_ensure_eq_ok_iff {fs : FileSystem} {directory : Path} :
    ((Step.ensure directory).perform fs).result = .ok () ↔
      (fs.ensureDirectories directory).error? = none := by
  rw [perform_ensure]
  split
  · next hnone => simp [hnone, Run.afterEvent, Run.pure]
  · next e hsome => simp [hsome, Run.fail]

/-- **A step that succeeds** has been performed. -/
theorem performed_perform {fs : FileSystem} {step : Step}
    (h : (step.perform fs).result = .ok ()) : Performed fs [step] (step.perform fs).fs := by
  cases step with
  | ensure directory =>
      rw [perform_ensure_eq_ok_iff] at h
      rw [fs_perform_ensure]
      exact {
        change := (FileSystem.change_ensureDirectories fs directory).mono (by
          simp [waysOf, directoriesOf, Step.directory?])
        written := fun _ hw => absurd hw List.not_mem_nil
        ensured := by
          intro other hother hne
          obtain rfl := List.mem_singleton.1 hother
          exact FileSystem.isDirectory_of_ensureDirectories hne h }
  | write kind path content =>
      have hwrite := write_of_perform h
      exact {
        change := FileSystem.change_write hwrite
        written := by
          intro w hw
          obtain rfl := List.mem_singleton.1 hw
          exact FileSystem.locate_of_write hwrite
        ensured := fun _ hdirectory => absurd hdirectory List.not_mem_nil }

/-- **What steps that succeed have done.** -/
theorem performed_performAll {fs : FileSystem} {steps : List Step}
    (h : (performAll fs steps).result = .ok ()) : Performed fs steps (performAll fs steps).fs := by
  induction steps generalizing fs with
  | nil => exact .refl fs
  | cons step steps ih =>
      obtain ⟨hstep, hsteps⟩ := performAll_cons_eq_ok_iff.1 h
      rw [performAll, Run.fs_andThen hstep]
      exact (performed_perform hstep).trans (ih hsteps)

/-- A step that succeeds has one event. -/
theorem events_perform {fs : FileSystem} {step : Step}
    (h : (step.perform fs).result = .ok ()) : (step.perform fs).events = [step.event] := by
  cases step with
  | ensure directory =>
      rw [perform_ensure_eq_ok_iff] at h
      rw [perform_ensure, h]
      rfl
  | write kind path content =>
      rw [Step.perform]
      split <;> rfl

/-- Steps that succeed are reported one by one. -/
theorem events_performAll {fs : FileSystem} {steps : List Step}
    (h : (performAll fs steps).result = .ok ()) :
    (performAll fs steps).events = steps.map Step.event := by
  induction steps generalizing fs with
  | nil => rfl
  | cons step steps ih =>
      obtain ⟨hstep, hsteps⟩ := performAll_cons_eq_ok_iff.1 h
      rw [performAll, Run.andThen, hstep]
      simp only [events_perform hstep, ih hsteps]
      rfl

/-! ### Steps that fail -/

/-- A step that fails writes nothing. -/
theorem change_of_perform_error {fs : FileSystem} {step : Step} {failure : Failure}
    (h : (step.perform fs).result = .error failure) :
    (∃ e, failure = .io e) ∧ fs.Change [] (waysOf fs.here [step]) (step.perform fs).fs := by
  cases step with
  | ensure directory =>
      refine ⟨?_, ?_⟩
      · rw [perform_ensure] at h
        split at h
        · cases h
        · next e _ => exact ⟨e, (Except.error.inj h).symm⟩
      · rw [fs_perform_ensure]
        exact (FileSystem.change_ensureDirectories fs directory).mono (by
          simp [waysOf, directoriesOf, Step.directory?])
  | write kind path content =>
      rw [Step.perform] at h ⊢
      cases hwrite : fs.write path (.text content) with
      | ok later => simp [hwrite, Run.afterEvent, Run.pure] at h
      | error e =>
          rw [hwrite] at h
          exact ⟨⟨e, (Except.error.inj h).symm⟩, .refl fs _⟩

/-- **How far steps get that fail**: to the first that fails. -/
theorem exists_failed_step {fs : FileSystem} {steps : List Step} {failure : Failure}
    (h : (performAll fs steps).result = .error failure) :
    ∃ before step after, steps = before ++ step :: after ∧
      (performAll fs before).result = .ok () ∧
      (step.perform (performAll fs before).fs).result = .error failure ∧
      (performAll fs steps).fs = (step.perform (performAll fs before).fs).fs := by
  induction steps generalizing fs with
  | nil => cases h
  | cons step steps ih =>
      cases hstep : (step.perform fs).result with
      | error e =>
          rw [performAll, Run.andThen, hstep] at h ⊢
          exact ⟨[], step, steps, rfl, rfl, hstep.trans h, rfl⟩
      | ok value =>
          cases value
          have hsteps : (performAll (step.perform fs).fs steps).result = .error failure := by
            rw [performAll, Run.andThen, hstep] at h
            exact h
          obtain ⟨before, failed, after, rfl, hbefore, hfailed, hfs⟩ := ih hsteps
          have hfront : (performAll fs (step :: before)).fs =
              (performAll (step.perform fs).fs before).fs := by
            rw [performAll, Run.fs_andThen hstep]
          refine ⟨step :: before, failed, after, rfl,
            performAll_cons_eq_ok_iff.2 ⟨hstep, hbefore⟩, ?_, ?_⟩
          · rw [hfront]
            exact hfailed
          · rw [hfront, performAll, Run.fs_andThen hstep]
            exact hfs

/-! ### Steps a second time -/

/-- A step that has succeeded succeeds again over files that have kept what it has made, and makes
no new directory. -/
theorem perform_again {fs other : FileSystem} {step : Step}
    (h : (step.perform fs).result = .ok ())
    (hkeeps : FileSystem.Keeps (step.perform fs).fs other) :
    (step.perform other).result = .ok () ∧
      other.Change (writesOf [step]) [] (step.perform other).fs := by
  cases step with
  | ensure directory =>
      rw [perform_ensure_eq_ok_iff] at h
      rw [fs_perform_ensure] at hkeeps ⊢
      rw [perform_ensure_eq_ok_iff]
      have hnothing : other.ensureDirectories directory = ⟨other, none⟩ := by
        by_cases hempty : directory.text = []
        · exact FileSystem.ensureDirectories_of_empty other hempty
        · exact FileSystem.ensureDirectories_of_isDirectory
            (FileSystem.isDirectory_of_grows hkeeps.toGrows
              (FileSystem.isDirectory_of_ensureDirectories hempty h))
      rw [hnothing]
      exact ⟨rfl, .refl other _⟩
  | write kind path content =>
      obtain ⟨after, hagain⟩ := FileSystem.write_again (write_of_perform h) hkeeps
      have hperform : (Step.write kind path content).perform other =
          .afterEvent (.writing kind path) (.pure after ()) := by
        rw [Step.perform, hagain]
      rw [hperform]
      exact ⟨rfl, FileSystem.change_write hagain⟩

/-- **Steps that have succeeded succeed again**, and make no directory. -/
theorem performAll_again {fs other : FileSystem} {steps : List Step}
    (h : (performAll fs steps).result = .ok ())
    (hkeeps : FileSystem.Keeps (performAll fs steps).fs other) :
    (performAll other steps).result = .ok () ∧
      other.Change (writesOf steps) [] (performAll other steps).fs := by
  induction steps generalizing fs other with
  | nil => exact ⟨rfl, .refl other _⟩
  | cons step steps ih =>
      obtain ⟨hstep, hsteps⟩ := performAll_cons_eq_ok_iff.1 h
      rw [performAll, Run.fs_andThen hstep] at hkeeps
      have hmid := (performed_performAll hsteps).change.keeps.trans hkeeps
      obtain ⟨hfirst, hchange⟩ := perform_again hstep hmid
      obtain ⟨hrest, hlater⟩ := ih hsteps (hkeeps.trans hchange.keeps)
      refine ⟨performAll_cons_eq_ok_iff.2 ⟨hfirst, hrest⟩, ?_⟩
      rw [performAll, Run.fs_andThen hfirst]
      have htogether := hchange.trans hlater
      rwa [← writesOf_append] at htogether

end Guidebook
