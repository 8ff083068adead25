import Guidebook.Proofs.Batch.Success

/-!
# Runs After One Another

What a run does with a candidate depends on the files that those before it have left, and on nothing
else that has become of them: reports only grow at their end. So a run is that over its first
candidates and, from the files that it leaves, that over the others.

## Main results

* `Report.record_eq`: recording adds the report of one candidate.
* `result_generate_append`, `fs_generate_append`: **a run in two parts**.
* `exists_failed_candidate`: a run that fails has failed at one of its candidates.
* `exists_took`: **a run that succeeds** has taken its candidates one after the other.
-/

namespace Guidebook

/-! ### Reports -/

namespace Report

/-- The summary of two runs, one after the other. -/
def append (first second : Report) : Report :=
  { pages := first.pages ++ second.pages
    runnable := first.runnable ++ second.runnable
    exported := first.exported ++ second.exported
    skipped := first.skipped ++ second.skipped
    ignored := first.ignored + second.ignored }

instance : Append Report := ⟨append⟩

variable (first second : Report)

/-- The pages of the first run stand before those of the second. -/
@[simp] theorem pages_append : (first ++ second).pages = first.pages ++ second.pages := rfl

/-- The runnable programs of the first run stand before those of the second. -/
@[simp] theorem runnable_append :
    (first ++ second).runnable = first.runnable ++ second.runnable := rfl

/-- The exported programs of the first run stand before those of the second. -/
@[simp] theorem exported_append :
    (first ++ second).exported = first.exported ++ second.exported := rfl

/-- What the first run has skipped stands before what the second has. -/
@[simp] theorem skipped_append : (first ++ second).skipped = first.skipped ++ second.skipped := rfl

/-- The files that are no guides are counted together. -/
@[simp] theorem ignored_append : (first ++ second).ignored = first.ignored + second.ignored := rfl

/-- Summaries are the same if all their lists and counts are. -/
@[ext] theorem ext {first second : Report} (pages : first.pages = second.pages)
    (runnable : first.runnable = second.runnable) (exported : first.exported = second.exported)
    (skipped : first.skipped = second.skipped) (ignored : first.ignored = second.ignored) :
    first = second := by
  cases first
  cases second
  simp_all

/-- The empty summary adds nothing behind another one. -/
@[simp] theorem append_empty (report : Report) : report ++ empty = report := by
  ext1 <;> simp [empty]

/-- The empty summary adds nothing in front of another one. -/
@[simp] theorem empty_append (report : Report) : empty ++ report = report := by
  ext1 <;> simp [empty]

/-- It does not matter which of three runs are put together first. -/
theorem append_assoc (first second third : Report) :
    first ++ second ++ third = first ++ (second ++ third) := by
  ext1 <;> simp [List.append_assoc, Nat.add_assoc]

/-- The summary of one candidate. -/
def ofCandidate (settings : Settings) (path : Path) (outcome : Outcome) : Report :=
  empty.record ((path.relativeTo? settings.sources).getD path) outcome

/-- Recording adds the summary of one candidate. -/
theorem record_eq (settings : Settings) (report : Report) (path : Path) (outcome : Outcome) :
    report.record ((path.relativeTo? settings.sources).getD path) outcome =
      report ++ ofCandidate settings path outcome := by
  cases outcome <;> ext1 <;> simp [ofCandidate, record, empty]

end Report

/-! ### Runs -/

section Runs

variable {publisher : Publisher} {settings : Settings} {fs : FileSystem} {path : Path}
  {first second : List Path} {report : Report} {outcome : Outcome} {failure : Failure}

/-- The result of a run is that of taking its candidates. -/
theorem result_generate (publisher : Publisher) (settings : Settings) (fs : FileSystem)
    (paths : List Path) : (generate publisher settings fs paths).result =
      (processAll publisher settings fs .empty paths).result := by
  rw [generate, Run.andThen]
  split
  · next h => rw [h]
  · next h => rw [h]; rfl

/-- The files that a run leaves are those left by taking its candidates. -/
theorem fs_generate (publisher : Publisher) (settings : Settings) (fs : FileSystem)
    (paths : List Path) : (generate publisher settings fs paths).fs =
      (processAll publisher settings fs .empty paths).fs := by
  rw [generate, Run.andThen]
  split <;> rfl

/-- What has been reported before makes no difference but to the report. -/
theorem processAll_report (publisher : Publisher) (settings : Settings) (fs : FileSystem)
    (report : Report) (paths : List Path) :
    (processAll publisher settings fs report paths).fs =
        (processAll publisher settings fs .empty paths).fs ∧
      (processAll publisher settings fs report paths).result =
        (processAll publisher settings fs .empty paths).result.map (report ++ ·) := by
  induction paths generalizing fs report with
  | nil => simp [processAll, Run.pure, Except.map]
  | cons path paths ih =>
      simp only [processAll, Run.andThen]
      cases (processFile publisher settings fs path).result with
      | error failure => exact ⟨rfl, rfl⟩
      | ok outcome =>
          simp only [Report.record_eq, Report.empty_append]
          obtain ⟨hfs, hresult⟩ := ih (processFile publisher settings fs path).fs
            (report ++ .ofCandidate settings path outcome)
          obtain ⟨hfsOne, hresultOne⟩ := ih (processFile publisher settings fs path).fs
            (.ofCandidate settings path outcome)
          refine ⟨hfs.trans hfsOne.symm, ?_⟩
          rw [hresult, hresultOne]
          cases (processAll publisher settings (processFile publisher settings fs path).fs .empty
              paths).result with
          | error failure => rfl
          | ok more => exact congrArg Except.ok (Report.append_assoc _ _ _)

/-- **A run in two parts**: the second goes on with the files that the first has left. -/
theorem fs_generate_append (h : (generate publisher settings fs first).result = .ok report)
    (second : List Path) : (generate publisher settings fs (first ++ second)).fs =
      (generate publisher settings (generate publisher settings fs first).fs second).fs := by
  rw [result_generate] at h
  rw [fs_generate, fs_generate, fs_generate, processAll_append, Run.fs_andThen h]
  exact (processAll_report _ _ _ _ _).1

/-- **The result of a run in two parts** is that of the second part, from the files that the first
has left, with the summary of the first in front. -/
theorem result_generate_append (h : (generate publisher settings fs first).result = .ok report)
    (second : List Path) : (generate publisher settings fs (first ++ second)).result =
      (generate publisher settings (generate publisher settings fs first).fs second).result.map
        (report ++ ·) := by
  rw [result_generate] at h
  rw [result_generate, result_generate, fs_generate, processAll_append]
  simp only [Run.andThen, h]
  exact (processAll_report _ _ _ _ _).2

/-- A run without candidates reports nothing and changes nothing. -/
theorem generate_nil : (generate publisher settings fs []).result = .ok .empty ∧
    (generate publisher settings fs []).fs = fs := ⟨rfl, rfl⟩

/-- A run over one candidate. -/
theorem generate_singleton_of_ok
    (h : (processFile publisher settings fs path).result = .ok outcome) :
    (generate publisher settings fs [path]).result = .ok (.ofCandidate settings path outcome) ∧
      (generate publisher settings fs [path]).fs = (processFile publisher settings fs path).fs := by
  rw [result_generate, fs_generate]
  simp only [processAll, Run.andThen, h]
  exact ⟨rfl, rfl⟩

/-- A run whose first candidate fails has failed with it, and leaves the files as they are then. -/
theorem generate_cons_of_error (paths : List Path)
    (h : (processFile publisher settings fs path).result = .error failure) :
    (generate publisher settings fs (path :: paths)).result = .error failure ∧
      (generate publisher settings fs (path :: paths)).fs =
        (processFile publisher settings fs path).fs := by
  rw [result_generate, fs_generate]
  simp only [processAll, Run.andThen, h]
  exact ⟨trivial, trivial⟩

/-- A run goes on behind a candidate that does not stop it. -/
theorem generate_cons_of_ok (paths : List Path)
    (h : (processFile publisher settings fs path).result = .ok outcome) :
    (generate publisher settings fs (path :: paths)).result =
        (generate publisher settings (processFile publisher settings fs path).fs paths).result.map
          (.ofCandidate settings path outcome ++ ·) ∧
      (generate publisher settings fs (path :: paths)).fs =
        (generate publisher settings (processFile publisher settings fs path).fs paths).fs := by
  obtain ⟨hresult, hfs⟩ := generate_singleton_of_ok h
  rw [← List.singleton_append, result_generate_append hresult, fs_generate_append hresult, hfs]
  exact ⟨rfl, rfl⟩

/-- **A run that fails** has failed at one of its candidates, behind a run that has not. -/
theorem exists_failed_candidate {paths : List Path}
    (h : (generate publisher settings fs paths).result = .error failure) :
    ∃ before path after report, paths = before ++ path :: after ∧
      (generate publisher settings fs before).result = .ok report ∧
      (processFile publisher settings (generate publisher settings fs before).fs path).result =
        .error failure ∧
      (generate publisher settings fs paths).fs =
        (processFile publisher settings (generate publisher settings fs before).fs path).fs := by
  induction paths generalizing fs with
  | nil => cases h
  | cons path paths ih =>
      cases hpath : (processFile publisher settings fs path).result with
      | error e =>
          obtain ⟨hresult, hfs⟩ := generate_cons_of_error paths hpath
          obtain rfl : e = failure := Except.error.inj (hresult.symm.trans h)
          exact ⟨[], path, paths, .empty, rfl, rfl, hpath, hfs⟩
      | ok outcome =>
          obtain ⟨hresult, hfs⟩ := generate_cons_of_ok paths hpath
          rw [hresult] at h
          have hpaths : (generate publisher settings (processFile publisher settings fs path).fs
              paths).result = .error failure := by
            cases hrest : (generate publisher settings (processFile publisher settings fs path).fs
                paths).result with
            | error e => rw [hrest] at h; exact h
            | ok more => rw [hrest] at h; cases h
          obtain ⟨before, failed, after, report, rfl, hbefore, hfailed, hlast⟩ := ih hpaths
          obtain ⟨hfront, hfrontFs⟩ := generate_cons_of_ok before hpath
          rw [hbefore] at hfront
          refine ⟨path :: before, failed, after, _, rfl, hfront, ?_, ?_⟩
          · rw [hfrontFs]
            exact hfailed
          · rw [hfs, hfrontFs]
            exact hlast

end Runs

/-! ### Candidates and what has become of them -/

/-- Candidates that have been taken one after the other, each with what has become of it. None of
them has stopped the run. -/
inductive Took (publisher : Publisher) (settings : Settings) :
    FileSystem → List (Path × Outcome) → FileSystem → Prop
  | nil (fs : FileSystem) : Took publisher settings fs [] fs
  | cons {fs later : FileSystem} {path : Path} {outcome : Outcome} {taken : List (Path × Outcome)}
      (first : (processFile publisher settings fs path).result = .ok outcome)
      (others : Took publisher settings (processFile publisher settings fs path).fs taken later) :
      Took publisher settings fs ((path, outcome) :: taken) later

namespace Report

/-- The summary of candidates, in order. -/
def ofTaken (settings : Settings) (taken : List (Path × Outcome)) : Report :=
  (taken.map fun candidate => ofCandidate settings candidate.1 candidate.2).foldr append empty

/-- The summary of candidates that have been taken begins with that of the first. -/
theorem ofTaken_cons (settings : Settings) (path : Path) (outcome : Outcome)
    (taken : List (Path × Outcome)) : ofTaken settings ((path, outcome) :: taken) =
      ofCandidate settings path outcome ++ ofTaken settings taken := rfl

end Report

section Taking

variable {publisher : Publisher} {settings : Settings} {fs later : FileSystem}
  {paths : List Path} {taken : List (Path × Outcome)} {report : Report}

/-- A run over candidates that have been taken. -/
theorem Took.generate_eq (h : Took publisher settings fs taken later) :
    (generate publisher settings fs (taken.map Prod.fst)).result =
        .ok (.ofTaken settings taken) ∧
      (generate publisher settings fs (taken.map Prod.fst)).fs = later := by
  induction h with
  | nil fs => exact generate_nil
  | cons first others ih =>
      obtain ⟨hresult, hfs⟩ := generate_cons_of_ok _ first
      obtain ⟨hothers, hlater⟩ := ih
      rw [List.map_cons, hresult, hfs, hothers]
      exact ⟨rfl, hlater⟩

/-- **A run that succeeds** has taken its candidates one after the other. -/
theorem exists_took (h : (generate publisher settings fs paths).result = .ok report) :
    ∃ taken, taken.map Prod.fst = paths ∧
      Took publisher settings fs taken (generate publisher settings fs paths).fs ∧
      report = .ofTaken settings taken := by
  induction paths generalizing fs report with
  | nil => exact ⟨[], rfl, .nil fs, (Except.ok.inj h).symm⟩
  | cons path paths ih =>
      cases hpath : (processFile publisher settings fs path).result with
      | error failure =>
          rw [(generate_cons_of_error paths hpath).1] at h
          cases h
      | ok outcome =>
          obtain ⟨hresult, hfs⟩ := generate_cons_of_ok paths hpath
          cases hmore : (generate publisher settings (processFile publisher settings fs path).fs
              paths).result with
          | error failure =>
              rw [hresult, hmore] at h
              cases h
          | ok more =>
              rw [hresult, hmore] at h
              obtain ⟨taken, rfl, htook, rfl⟩ := ih hmore
              rw [hfs]
              exact ⟨(path, outcome) :: taken, rfl, .cons hpath htook, (Except.ok.inj h).symm⟩

/-- The candidates that are taken one after the other, as far as it goes, and what becomes of
them. -/
def outcomesOf (publisher : Publisher) (settings : Settings) :
    FileSystem → List Path → List (Path × Outcome)
  | _, [] => []
  | fs, path :: paths =>
    match (processFile publisher settings fs path).result with
    | .error _ => []
    | .ok outcome =>
      (path, outcome) ::
        outcomesOf publisher settings (processFile publisher settings fs path).fs paths

/-- What becomes of the candidates of a run is what has become of them when they were taken. -/
theorem Took.outcomesOf_eq (h : Took publisher settings fs taken later) :
    outcomesOf publisher settings fs (taken.map Prod.fst) = taken := by
  induction h with
  | nil fs => rfl
  | cons first others ih =>
      rw [List.map_cons, outcomesOf, first]
      exact congrArg _ ih

end Taking

end Guidebook
