import Guidebook.Proofs.Batch.Decision

/-!
# Candidates That Are Left Out

A guide that the publisher rejects, or a file that is no guide, makes no difference to the rest of
a run: the run with it and the run without it end with the same files, in the same way, and differ
in their reports by what the one candidate adds.

## Main results

* `fs_processFile_of_spared`: what is skipped or ignored leaves the files as they were.
* `generate_spares`: **the rest of a run** behind a candidate that is left out.
-/

namespace Guidebook

section Spared

variable {publisher : Publisher} {settings : Settings} {fs : FileSystem} {path : Path}
  {outcome : Outcome} {rejection : Rejection}

/-- What is skipped or ignored leaves the files as they were. -/
theorem fs_processFile_of_spared
    (h : (processFile publisher settings fs path).result = .ok outcome)
    (hspared : ∀ outputs, outcome ≠ .generated outputs) :
    (processFile publisher settings fs path).fs = fs := by
  have hdecided := decided_processFile publisher settings fs path
  rw [h] at hdecided
  exact eq_of_decided hdecided (fun outputs heq => hspared outputs (Except.ok.inj heq))
    fun e heq => nomatch heq

/-- What is ignored is no guide. -/
theorem extension_of_ignored
    (h : (processFile publisher settings fs path).result = .ok .ignored) :
    path.extension? ≠ some "md".toList ∧ path.extension? ≠ some "kt".toList := by
  have hdecided := decided_processFile publisher settings fs path
  rw [h] at hdecided
  generalize (processFile publisher settings fs path).fs = later at hdecided
  cases hdecided with
  | ignored notLegacy notGuide => exact ⟨notLegacy, notGuide⟩

/-- What is skipped is a guide that the publisher has rejected. -/
theorem exists_rejected_of_skipped
    (h : (processFile publisher settings fs path).result = .ok (.skipped rejection)) :
    path.extension? = some "kt".toList ∧
      ∃ file content, GuideFile.ofPath? settings.sources path = some file ∧
        fs.read path = .ok content ∧
        publisher.ofGuide settings file content = .error rejection := by
  have hdecided := decided_processFile publisher settings fs path
  rw [h] at hdecided
  generalize (processFile publisher settings fs path).fs = later at hdecided
  cases hdecided with
  | rejected isGuide found read rejected => exact ⟨isGuide, _, _, found, read, rejected⟩

/-- A run goes on behind a candidate that is left out as if it had not been there. -/
theorem generate_cons_of_spared (paths : List Path)
    (h : (processFile publisher settings fs path).result = .ok outcome)
    (hspared : ∀ outputs, outcome ≠ .generated outputs) :
    (generate publisher settings fs (path :: paths)).result =
        (generate publisher settings fs paths).result.map
          (.ofCandidate settings path outcome ++ ·) ∧
      (generate publisher settings fs (path :: paths)).fs =
        (generate publisher settings fs paths).fs := by
  obtain ⟨hresult, hfs⟩ := generate_cons_of_ok paths h
  rw [fs_processFile_of_spared h hspared] at hresult hfs
  exact ⟨hresult, hfs⟩

end Spared

/-- **The rest of a run** does not depend on a candidate that is skipped or ignored. With it and
without it, the run leaves the same files and fails alike; and if it succeeds, the reports are the
same but for one more entry between those of the candidates before and those behind, with the path
of the guide as seen from the root and the publisher's reason, or one more file ignored. -/
theorem generate_spares {publisher : Publisher} {settings : Settings} {fs : FileSystem}
    {first second : List Path} {path : Path} {before : Report} {outcome : Outcome}
    (hfirst : (generate publisher settings fs first).result = .ok before)
    (hpath :
      (processFile publisher settings (generate publisher settings fs first).fs path).result =
        .ok outcome)
    (hspared : outcome = .ignored ∨ ∃ rejection, outcome = .skipped rejection) :
    (generate publisher settings fs (first ++ path :: second)).fs =
        (generate publisher settings fs (first ++ second)).fs ∧
      (∀ failure,
        (generate publisher settings fs (first ++ path :: second)).result = .error failure ↔
          (generate publisher settings fs (first ++ second)).result = .error failure) ∧
      ∀ report, (generate publisher settings fs (first ++ second)).result = .ok report →
        (outcome = .ignored →
          (generate publisher settings fs (first ++ path :: second)).result =
            .ok { report with ignored := report.ignored + 1 }) ∧
        ∀ rejection, outcome = .skipped rejection →
          ∃ file content behind, GuideFile.ofPath? settings.sources path = some file ∧
            path.relativeTo? settings.sources = some file.relativePath ∧
            (generate publisher settings fs first).fs.read path = .ok content ∧
            publisher.ofGuide settings file content = .error rejection ∧
            report.skipped = before.skipped ++ behind ∧
            (generate publisher settings fs (first ++ path :: second)).result =
              .ok { report with
                skipped := before.skipped ++ ⟨file.relativePath, rejection⟩ :: behind } := by
  have hnothing : ∀ outputs, outcome ≠ .generated outputs := by
    rintro outputs rfl
    rcases hspared with habsurd | ⟨rejection, habsurd⟩
    · cases habsurd
    · cases habsurd
  obtain ⟨hresult, hfs⟩ := generate_cons_of_spared second hpath hnothing
  have hwith := result_generate_append hfirst (path :: second)
  have hwithout := result_generate_append hfirst second
  rw [hresult] at hwith
  refine ⟨?_, fun failure => ?_, fun report hreport => ?_⟩
  · rw [fs_generate_append hfirst, fs_generate_append hfirst, hfs]
  · rw [hwith, hwithout]
    cases (generate publisher settings (generate publisher settings fs first).fs second).result with
    | error failure => exact Iff.rfl
    | ok more => simp [Except.map]
  · rw [hwithout] at hreport
    cases hmore : (generate publisher settings (generate publisher settings fs first).fs
        second).result with
    | error failure => rw [hmore] at hreport; cases hreport
    | ok more =>
        rw [hmore] at hwith hreport
        obtain rfl := Except.ok.inj hreport
        refine ⟨?_, ?_⟩
        · rintro rfl
          rw [hwith]
          refine congrArg Except.ok ?_
          ext1 <;> simp [Report.ofCandidate, Report.record, Report.empty]
          omega
        · rintro rejection rfl
          obtain ⟨-, file, content, hfound, hread, hrejected⟩ := exists_rejected_of_skipped hpath
          have hrelative := GuideFile.relativeTo?_of_ofPath? hfound
          refine ⟨file, content, more.skipped, hfound, hrelative, hread, hrejected, rfl, ?_⟩
          rw [hwith]
          refine congrArg Except.ok ?_
          ext1 <;> simp [Report.ofCandidate, Report.record, Report.empty, hrelative]

/-- An empty guide between two others and a file that is no guide leaves nothing but its entry. -/
theorem generate_spares_empty_guide :
    (generate Guide.publish .plain .sharedPage
        ([⟨"src/a.kt".toList⟩, ⟨"src/b.kt".toList⟩] ++
          ⟨"src/c.kt".toList⟩ :: [⟨"src/d.txt".toList⟩])).fs =
      (generate Guide.publish .plain .sharedPage
        ([⟨"src/a.kt".toList⟩, ⟨"src/b.kt".toList⟩] ++ [⟨"src/d.txt".toList⟩])).fs ∧
    (generate Guide.publish .plain .sharedPage candidatesOfSharedPage).result =
      .ok reportOfSharedPage := by
  have hfirst : (generate Guide.publish .plain .sharedPage
      [⟨"src/a.kt".toList⟩, ⟨"src/b.kt".toList⟩]).result =
      .ok { reportOfSharedPage with skipped := [], ignored := 0 } := by
    decide +kernel
  have hpath : (processFile Guide.publish .plain (generate Guide.publish .plain .sharedPage
      [⟨"src/a.kt".toList⟩, ⟨"src/b.kt".toList⟩]).fs ⟨"src/c.kt".toList⟩).result =
      .ok (.skipped ⟨1, "missing `fun main() \x7b` entry point".toList⟩) := by
    decide +kernel
  have hwithout : (generate Guide.publish .plain .sharedPage
      ([⟨"src/a.kt".toList⟩, ⟨"src/b.kt".toList⟩] ++ [⟨"src/d.txt".toList⟩])).result =
      .ok { reportOfSharedPage with skipped := [] } := by
    decide +kernel
  have hthere : (⟨"src/c.kt".toList⟩ : Path).relativeTo? Settings.plain.sources =
      some ⟨"c.kt".toList⟩ := by
    decide +kernel
  obtain ⟨hfs, -, hreports⟩ := @generate_spares _ _ _ _ [⟨"src/d.txt".toList⟩] _ _ _ hfirst hpath
    (.inr ⟨_, rfl⟩)
  obtain ⟨file, content, behind, -, hrelative, -, -, hbehind, hwith⟩ :=
    (hreports _ hwithout).2 _ rfl
  obtain rfl : [] = behind := hbehind
  rw [← Option.some.inj (hthere.symm.trans hrelative)] at hwith
  exact ⟨hfs, hwith⟩

end Guidebook
