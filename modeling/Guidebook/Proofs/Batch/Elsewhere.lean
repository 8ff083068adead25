import Guidebook.Proofs.Batch.Account
import Guidebook.Proofs.FileTree.Between

/-!
# Candidates in Another File System

What has to be done for a candidate depends on nothing in the file system but the content of the
candidate itself. Whether it can be done depends on more; but what can be done in one file system
can be done in a larger one, as long as that is still on the way to one in which everything is as
the steps leave it.

## Main results

* `performAll_between`: **steps in between** two file systems.
* `processFile_elsewhere`: **a candidate that holds the same elsewhere** has the same steps, and the
  outcome is the same if these can be carried out.
-/

namespace Guidebook

open FileSystem

/-! ### Steps -/

/-- Everything is as the steps leave it: there are files where they write, and the directories that
they make sure of. -/
structure Contains (fs : FileSystem) (steps : List Step) : Prop where
  files : ∀ w ∈ writesOf steps, ∃ content,
    fs.tree.entryAt? (w.1.resolve fs.here) = some (.file content)
  directories : ∀ directory ∈ directoriesOf steps, directory.text ≠ [] →
    fs.isDirectory directory = true

section Steps

variable {fs mid after later last : FileSystem} {step : Step} {steps fewer : List Step}

/-- What holds the outcome of some steps holds that of fewer. -/
theorem Contains.of_subset (h : Contains fs steps) (hfewer : ∀ step ∈ fewer, step ∈ steps) :
    Contains fs fewer where
  files := by
    intro w hw
    obtain ⟨step, hstep, hwrite⟩ := List.mem_filterMap.1 hw
    exact h.files w (List.mem_filterMap.2 ⟨step, hfewer step hstep, hwrite⟩)
  directories := by
    intro directory hdirectory
    obtain ⟨step, hstep, hensure⟩ := List.mem_filterMap.1 hdirectory
    exact h.directories directory (List.mem_filterMap.2 ⟨step, hfewer step hstep, hensure⟩)

/-- There are directories all the way to those that the steps make sure of. -/
theorem Contains.entryAt?_of_mem_waysOf (h : Contains fs steps) {place : Location}
    (hplace : place ∈ waysOf fs.here steps) : fs.tree.entryAt? place = some .directory := by
  obtain ⟨directory, hdirectory, hway⟩ := List.mem_flatMap.1 hplace
  obtain ⟨hne, -⟩ := Path.mem_way_iff.1 hway
  exact (isDirectory_iff.1 (h.directories directory hdirectory hne)).2.2 place hway

namespace Performed

/-- Steps that have been carried out leave everything as they leave it. -/
theorem contains (h : Performed fs steps later) : Contains later steps where
  files := by
    intro w hw
    obtain ⟨content, hcontent⟩ := exists_lastWrite? fs.here hw
    rw [h.change.here]
    exact ⟨_, (h.change.written _ content hcontent).2⟩
  directories := h.ensured

/-- **What lies where** behind steps: what has been written there last, a directory on the way to
those that they make sure of, or else what was there before. -/
theorem entryAt?_eq (h : Performed fs steps later) (place : Location) :
    later.tree.entryAt? place =
      match lastWrite? fs.here place (writesOf steps) with
      | some content => some (.file (.text content))
      | none =>
        if place ∈ waysOf fs.here steps then some .directory else fs.tree.entryAt? place := by
  split
  · next content hwrite => exact (h.change.written place content hwrite).2
  · next hwrite =>
    split
    · next hway => exact h.contains.entryAt?_of_mem_waysOf (h.change.here ▸ hway)
    · next hway =>
      exact (h.change.other place hwrite).resolve_right fun hmade => hway hmade.2.2

/-- The same steps keep the order of file systems. -/
theorem keeps_performed (h : Performed fs steps after) (hmid : Performed mid steps later)
    (hkeeps : Keeps fs mid) : Keeps after later := by
  refine h.change.keeps_change hmid.change hkeeps fun place hplace _ => ?_
  rw [← hkeeps.here, ← hmid.change.here] at hplace
  exact hmid.contains.entryAt?_of_mem_waysOf hplace

/-- Steps lead to nothing that is not kept where everything is as they leave it. -/
theorem keeps_last (h : Performed mid steps later) (hkeeps : Keeps mid last)
    (hcontains : Contains last steps) : Keeps later last := by
  refine h.change.keeps_last hkeeps hcontains.files fun place hplace => ?_
  rw [← hkeeps.here] at hplace
  exact hcontains.entryAt?_of_mem_waysOf hplace

end Performed

/-- A step that succeeds over fewer files succeeds between them and the files in which everything
stands that it makes. -/
theorem perform_between (hkeeps : Keeps fs mid) (hlast : Keeps mid last)
    (hcontains : Contains last [step]) (h : (step.perform fs).result = .ok ()) :
    (step.perform mid).result = .ok () := by
  cases step with
  | ensure directory =>
      rw [perform_ensure_eq_ok_iff] at h ⊢
      exact ensureDirectories_between hkeeps hlast
        (hcontains.directories directory (List.mem_singleton.2 rfl)) h
  | write kind path content =>
      obtain ⟨later, hlater⟩ := write_between hkeeps hlast
        (hcontains.files (path, content) (List.mem_singleton.2 rfl)) (write_of_perform h)
      rw [Step.perform, hlater]
      rfl

/-- **Steps in between**: they succeed again, and lead to a file system in between. -/
theorem performAll_between (hkeeps : Keeps fs mid) (hlast : Keeps mid last)
    (hcontains : Contains last steps) (h : (performAll fs steps).result = .ok ()) :
    (performAll mid steps).result = .ok () ∧ Keeps (performAll mid steps).fs last := by
  induction steps generalizing fs mid with
  | nil => exact ⟨rfl, hlast⟩
  | cons step steps ih =>
      obtain ⟨hstep, hsteps⟩ := performAll_cons_eq_ok_iff.1 h
      have hone : Contains last [step] := hcontains.of_subset (by simp)
      have hmid := perform_between hkeeps hlast hone hstep
      have hperformed := performed_perform hmid
      obtain ⟨hrest, hlater⟩ := ih ((performed_perform hstep).keeps_performed hperformed hkeeps)
        (hperformed.keeps_last hlast hone) (hcontains.of_subset (by simp +contextual)) hsteps
      rw [performAll, Run.fs_andThen hmid]
      exact ⟨performAll_cons_eq_ok_iff.2 ⟨hmid, hrest⟩, hlater⟩

end Steps

/-! ### Candidates -/

section Candidates

variable {publisher : Publisher} {settings : Settings} {fs mid other : FileSystem} {path : Path}
  {outcome : Outcome}

/-- What can be read is still there behind writes to other places. -/
theorem FileSystem.read_of_change {writes : List (Path × Text)} {made : List Location}
    (h : Change fs writes made mid)
    (hspared : ∀ w ∈ writes, w.1.resolve fs.here ≠ path.resolve fs.here) {t : Text}
    (hread : fs.read path = .ok t) : mid.read path = .ok t := by
  obtain ⟨place, hplace, hfile⟩ := read_ok_iff.1 hread
  refine read_ok_iff.2 ⟨place, locate_of_grows h.keeps.toGrows hplace, ?_⟩
  rw [← eq_resolve_of_locate hplace] at hspared
  exact (h.file_iff (lastWrite?_eq_none_iff.2 hspared)).2 hfile

/-- What comes of a candidate elsewhere, if it comes down to the same steps. -/
structure SameElsewhere (publisher : Publisher) (settings : Settings) (fs other : FileSystem)
    (path : Path) (outcome : Outcome) : Prop where
  steps : stepsFor publisher settings other path = stepsFor publisher settings fs path
  result : (processFile publisher settings other path).result =
    (performAll other (stepsFor publisher settings fs path)).result.map fun _ => outcome
  left : (processFile publisher settings other path).fs =
    (performAll other (stepsFor publisher settings fs path)).fs

/-- **A candidate that holds the same elsewhere** has the same steps, and the outcome is the same if
these can be carried out. -/
theorem processFile_elsewhere (h : (processFile publisher settings fs path).result = .ok outcome)
    (hread : ∀ t, fs.read path = .ok t → other.read path = .ok t) :
    SameElsewhere publisher settings fs other path outcome := by
  cases outcome with
  | generated outputs =>
      obtain ⟨g, -, rfl, -⟩ := exists_generation h
      let elsewhere : Generation publisher settings other path :=
        ⟨g.file, g.content, g.publication, g.place, g.isGuide, g.found, hread _ g.read, g.published,
          g.placed⟩
      have hplan : elsewhere.plan = g.plan := rfl
      have hprocess := processFile_eq_performAll elsewhere
      have hsteps : stepsFor publisher settings fs path = g.plan.steps := stepsFor_of_generation g
      rw [hplan] at hprocess
      refine ⟨?_, ?_, ?_⟩
      · rw [stepsFor_of_generation elsewhere, hplan, hsteps]
      · rw [hprocess, hsteps]
      · rw [hprocess, hsteps]
  | skipped rejection =>
      obtain ⟨hguide, file, content, hfound, hcontent, hrejected⟩ := exists_rejected_of_skipped h
      have hthere := hread content hcontent
      have hsteps : stepsFor publisher settings fs path = [] :=
        stepsFor_of_rejected hguide hfound hcontent hrejected
      have hprocess := processFile_of_rejected hguide hfound hthere hrejected
      exact ⟨by rw [stepsFor_of_rejected hguide hfound hthere hrejected, hsteps],
        by rw [hprocess, hsteps]; rfl, by rw [hprocess, hsteps]; rfl⟩
  | ignored =>
      obtain ⟨hlegacy, hguide⟩ := extension_of_ignored h
      have hsteps : stepsFor publisher settings fs path = [] := stepsFor_of_ignored hguide
      have hprocess : processFile publisher settings other path =
          .afterEvent (.ignored path) (.pure other .ignored) :=
        processFile_of_ignored hlegacy hguide
      exact ⟨by rw [stepsFor_of_ignored hguide, hsteps],
        by rw [hprocess, hsteps]; rfl, by rw [hprocess, hsteps]; rfl⟩

/-- The steps of a candidate that has not stopped a run can be carried out elsewhere if they can be
carried out at all: then its outcome is the same. -/
theorem SameElsewhere.of_completed (h : SameElsewhere publisher settings fs other path outcome)
    (hsteps : (performAll other (stepsFor publisher settings fs path)).result = .ok ()) :
    (processFile publisher settings other path).result = .ok outcome := by
  rw [h.result, hsteps]
  rfl

/-- A candidate that has not stopped a run elsewhere has the same outcome there. -/
theorem SameElsewhere.outcome_eq (h : SameElsewhere publisher settings fs other path outcome)
    {there : Outcome} (hthere : (processFile publisher settings other path).result = .ok there) :
    there = outcome := by
  rw [h.result] at hthere
  cases hsteps : (performAll other (stepsFor publisher settings fs path)).result with
  | error failure => rw [hsteps] at hthere; cases hthere
  | ok value => rw [hsteps] at hthere; exact (Except.ok.inj hthere).symm

end Candidates

end Guidebook
