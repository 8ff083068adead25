import Guidebook.Proofs.Batch.Continuation
import Guidebook.Proofs.Batch.Steps

/-!
# How Candidates Are Decided

A candidate is decided before anything is written. By its extension it is a guide, a guide in the
retired format, or neither. A guide has to lie below the root of the guides, it has to be readable,
the publisher has to accept it, and its directives have to name a place; the first of these that
fails decides, and leaves the files as they were. Otherwise the files of the publication are written
in order, the page, the runnable programs, the exported programs, all of them or as far as it goes.

## Main results

* `writesOf_plan`: the files of a publication, in order.
* `decided_processFile`: **the rules by which candidates are decided**.
* `decided_and_exists_failed_candidate`: the rules, and what a failed run has behind it.
-/

namespace Guidebook

/-! ### Guides -/

/-- What the publisher makes of a guide. -/
def Publisher.ofGuide (publisher : Publisher) (settings : Settings) (file : GuideFile)
    (content : Text) : Except Rejection Publication :=
  let request := requestFor settings file content
  publisher request.content request.package request.link

/-- Directives name no place if their `URL` is missing, or nothing but blanks and slashes. -/
theorem publishPlace?_eq_none_iff {directives : Directives} :
    publishPlace? directives = none ↔ ∀ url, directives.get? "URL".toList = some url →
      (Text.trim url).dropWhile (· = '/') = [] := by
  rw [publishPlace?]
  cases directives.get? "URL".toList with
  | none => simp
  | some url => simp

/-! ### The files of a publication -/

/-- There are as many paths as programs. -/
theorem length_programPaths (directory : Path) (name extension : Text) (programs : List Text) :
    (programPaths directory name extension programs).length = programs.length :=
  List.length_mapIdx

/-- The steps for programs write each of them at its path. -/
theorem writesOf_programSteps (kind : OutputKind) (directory : Path) (paths : List Path)
    (programs : List Text) :
    writesOf (programSteps kind directory paths programs) = paths.zip programs := by
  rw [programSteps]
  split
  · next hnil => simp [hnil, writesOf]
  · simp only [writesOf, List.filterMap_cons, Step.write?, List.filterMap_map]
    exact List.filterMap_some

/-- Steps that end with a file that is written, if there are any. -/
def EndWithWrite (steps : List Step) : Prop :=
  ∀ step ∈ steps.getLast?, step.write?.isSome

/-- Steps end with a file that is written if both parts do. -/
theorem EndWithWrite.append {first second : List Step} (h : EndWithWrite first)
    (hsecond : EndWithWrite second) : EndWithWrite (first ++ second) := by
  intro step hstep
  rw [List.getLast?_append] at hstep
  cases hlast : second.getLast? with
  | some last =>
      obtain rfl : last = step := by simpa [hlast] using hstep
      exact hsecond last hlast
  | none => exact h step (by simpa [hlast] using hstep)

/-- Programs are put in their place by writing the last of them in the end. -/
theorem endWithWrite_programSteps (kind : OutputKind) (directory : Path) {paths : List Path}
    {programs : List Text} (h : paths.length = programs.length) :
    EndWithWrite (programSteps kind directory paths programs) := by
  intro step hstep
  rw [programSteps] at hstep
  split at hstep
  · cases hstep
  · next hne =>
    have hfiles : paths.zip programs ≠ [] := by
      rw [Ne, List.zip_eq_nil_iff, not_or]
      refine ⟨fun hnil => hne ?_, hne⟩
      rwa [hnil, List.length_nil, eq_comm, List.length_eq_zero_iff] at h
    obtain ⟨files, file, hlast⟩ := (List.eq_nil_or_concat' (paths.zip programs)).resolve_left hfiles
    rw [hlast, List.map_append, ← List.cons_append, List.map_singleton,
      List.getLast?_concat] at hstep
    obtain rfl := Option.some.inj hstep
    rfl

/-- Where steps end with a file that is written, so does each that is left of them. -/
theorem EndWithWrite.writesOf_ne_nil {before after : List Step} {step : Step}
    (h : EndWithWrite (before ++ step :: after)) : writesOf (step :: after) ≠ [] := by
  obtain ⟨front, last, hlast⟩ :=
    (List.eq_nil_or_concat' (step :: after)).resolve_left (List.cons_ne_nil step after)
  obtain ⟨file, hfile⟩ := Option.isSome_iff_exists.1
    (h last (by rw [hlast, ← List.append_assoc, List.getLast?_concat]; rfl))
  have hmem : file ∈ writesOf (step :: after) := by
    rw [hlast, writesOf_append]
    exact List.mem_append_right _ (List.mem_filterMap.2 ⟨last, List.mem_singleton.2 rfl, hfile⟩)
  exact List.ne_nil_of_mem hmem

/-- The steps of a plan write the page with its front matter, the runnable programs, and the
exported programs. -/
theorem Plan.writesOf_steps (settings : Settings) (file : GuideFile) (publication : Publication)
    (place : Path) :
    writesOf (Plan.ofPublication settings file publication place).steps =
      ((Plan.ofPublication settings file publication place).outputs.page,
          (FrontMatter.ofDirectives (settings.citedPath file) publication.directives).render ++
            publication.page) ::
        ((Plan.ofPublication settings file publication place).outputs.runnable.zip
            publication.runnable ++
          (Plan.ofPublication settings file publication place).outputs.exported.zip
            publication.exported) := by
  rw [Plan.ofPublication]
  simp only [writesOf_append, writesOf_programSteps]
  rfl

/-- The files that a plan writes are those that it results in. -/
theorem Plan.map_fst_writesOf_steps (settings : Settings) (file : GuideFile)
    (publication : Publication) (place : Path) :
    (writesOf (Plan.ofPublication settings file publication place).steps).map Prod.fst =
      (Plan.ofPublication settings file publication place).outputs.page ::
        ((Plan.ofPublication settings file publication place).outputs.runnable ++
          (Plan.ofPublication settings file publication place).outputs.exported) := by
  have hrunnable : (Plan.ofPublication settings file publication place).outputs.runnable.length =
      publication.runnable.length :=
    length_programPaths _ _ _ _
  have hexported : (Plan.ofPublication settings file publication place).outputs.exported.length =
      publication.exported.length :=
    length_programPaths _ _ _ _
  rw [Plan.writesOf_steps, List.map_cons, List.map_append, List.map_fst_zip hrunnable.le,
    List.map_fst_zip hexported.le]

namespace Generation

variable {publisher : Publisher} {settings : Settings} {fs : FileSystem} {path : Path}

/-- The files of a publication, in the order in which they are written: the page with its front
matter, the runnable programs, the exported programs. -/
def files (g : Generation publisher settings fs path) : List (Path × Text) :=
  (g.plan.outputs.page,
      (FrontMatter.ofDirectives (settings.citedPath g.file) g.publication.directives).render ++
        g.publication.page) ::
    (g.plan.outputs.runnable.zip g.publication.runnable ++
      g.plan.outputs.exported.zip g.publication.exported)

/-- The steps of a plan write the files of the publication. -/
theorem writesOf_plan (g : Generation publisher settings fs path) :
    writesOf g.plan.steps = g.files :=
  Plan.writesOf_steps settings g.file g.publication g.place

/-- The steps of a plan end with a file that is written. -/
theorem endWithWrite_plan (g : Generation publisher settings fs path) :
    EndWithWrite g.plan.steps := by
  have hpage : ∀ directory page text, EndWithWrite [.ensure directory, .write .page page text] := by
    intro directory page text step hstep
    obtain rfl := Option.some.inj hstep
    rfl
  exact ((hpage _ _ _).append (endWithWrite_programSteps _ _ (length_programPaths _ _ _ _))).append
    (endWithWrite_programSteps _ _ (length_programPaths _ _ _ _))

/-- The files are named in the outputs, in the order in which they are written. -/
theorem map_fst_files (g : Generation publisher settings fs path) :
    g.files.map Prod.fst =
      g.plan.outputs.page :: (g.plan.outputs.runnable ++ g.plan.outputs.exported) := by
  rw [← g.writesOf_plan]
  exact Plan.map_fst_writesOf_steps settings g.file g.publication g.place

end Generation

/-! ### The rules -/

section Rules

variable {publisher : Publisher} {settings : Settings} {fs : FileSystem} {path : Path}
  {file : GuideFile} {content : Text}

/-- A guide in the retired format fails. -/
theorem processFile_of_legacy (h : path.extension? = some "md".toList) :
    processFile publisher settings fs path = .fail fs (.unsupportedFormat path) := by
  rw [processFile, Format.ofPath?_eq_legacyMarkdown_iff.2 h]

/-- A file with another extension is ignored. -/
theorem processFile_of_ignored (hlegacy : path.extension? ≠ some "md".toList)
    (hguide : path.extension? ≠ some "kt".toList) :
    processFile publisher settings fs path =
      .afterEvent (.ignored path) (.pure fs .ignored) := by
  rw [processFile]
  cases hformat : Format.ofPath? path with
  | none => rfl
  | some format =>
      cases format with
      | kotlin => exact absurd (Format.ofPath?_eq_kotlin_iff.1 hformat) hguide
      | legacyMarkdown => exact absurd (Format.ofPath?_eq_legacyMarkdown_iff.1 hformat) hlegacy

/-- A `.kt` file is taken as a guide. -/
theorem processFile_of_guide (h : path.extension? = some "kt".toList) :
    processFile publisher settings fs path = processGuide publisher settings fs path := by
  rw [processFile, Format.ofPath?_eq_kotlin_iff.2 h]

/-- A guide that does not lie below the root of the guides fails. -/
theorem processFile_of_outside (hguide : path.extension? = some "kt".toList)
    (h : GuideFile.ofPath? settings.sources path = none) :
    processFile publisher settings fs path =
      .fail fs (.sourceOutsideRoot path settings.sources) := by
  rw [processFile_of_guide hguide, processGuide, h]

variable (hguide : path.extension? = some "kt".toList)
  (hfound : GuideFile.ofPath? settings.sources path = some file)

include hguide hfound in
/-- A guide that cannot be read fails for the reason that reading it does. -/
theorem processFile_of_unreadable {e : IoError} (h : fs.read path = .error e) :
    processFile publisher settings fs path = .fail fs (.io e) := by
  rw [processFile_of_guide hguide, processGuide, hfound]
  simp only [h]

variable (hread : fs.read path = .ok content)

include hguide hfound hread in
/-- A guide that the publisher rejects is skipped, with an event that says why. -/
theorem processFile_of_rejected {rejection : Rejection}
    (h : publisher.ofGuide settings file content = .error rejection) :
    processFile publisher settings fs path =
      .afterRequest (requestFor settings file content)
        (.afterEvent (.rejected file.relativePath.slashed rejection)
          (.pure fs (.skipped rejection))) := by
  rw [Publisher.ofGuide] at h
  rw [processFile_of_guide hguide, processGuide, hfound]
  simp only [hread, h]

include hguide hfound hread in
/-- A guide whose directives name no place fails. -/
theorem processFile_of_unplaced {publication : Publication}
    (h : publisher.ofGuide settings file content = .ok publication)
    (hplace : publishPlace? publication.directives = none) :
    processFile publisher settings fs path =
      .afterRequest (requestFor settings file content)
        (.fail fs (.missingDirective "URL".toList file.relativePath.slashed)) := by
  rw [Publisher.ofGuide] at h
  rw [processFile_of_guide hguide, processGuide, hfound]
  simp only [hread, h, writePublication, hplace, Run.fail_andThen]

/-- A guide that can be published is put in its place by the steps of its plan. -/
theorem processFile_of_generation (g : Generation publisher settings fs path) :
    processFile publisher settings fs path =
      .afterRequest (requestFor settings g.file g.content)
        ((performAll fs g.plan.steps).andThen fun fs _ =>
          .pure fs (.generated g.plan.outputs)) := by
  have hpublished := g.published
  rw [processFile_of_guide g.isGuide, processGuide, g.found]
  simp only [g.read, requestFor, hpublished, writePublication, g.placed, Run.andThen_assoc,
    Run.pure_andThen]
  rfl

/-- What becomes of a guide that can be published is what becomes of the steps of its plan. -/
theorem processFile_eq_performAll (g : Generation publisher settings fs path) :
    processFile publisher settings fs path =
      ⟨(performAll fs g.plan.steps).fs, (performAll fs g.plan.steps).events,
        requestFor settings g.file g.content :: (performAll fs g.plan.steps).requests,
        (performAll fs g.plan.steps).result.map fun _ => .generated g.plan.outputs⟩ := by
  rw [processFile_of_generation, Run.andThen_value]
  rfl

end Rules

/-- **The rules by which candidates are decided.** The first that applies says what has become of
the files, and what the result is. -/
inductive Decided (publisher : Publisher) (settings : Settings) (fs : FileSystem) (path : Path) :
    FileSystem → Except Failure Outcome → Prop
  | legacy (isLegacy : path.extension? = some "md".toList) :
      Decided publisher settings fs path fs (.error (.unsupportedFormat path))
  | ignored (notLegacy : path.extension? ≠ some "md".toList)
      (notGuide : path.extension? ≠ some "kt".toList) :
      Decided publisher settings fs path fs (.ok .ignored)
  | outside (isGuide : path.extension? = some "kt".toList)
      (outside : ¬ settings.sources.components <+: path.components) :
      Decided publisher settings fs path fs (.error (.sourceOutsideRoot path settings.sources))
  | unreadable {file : GuideFile} {e : IoError} (isGuide : path.extension? = some "kt".toList)
      (found : GuideFile.ofPath? settings.sources path = some file)
      (unreadable : fs.read path = .error e) :
      Decided publisher settings fs path fs (.error (.io e))
  | rejected {file : GuideFile} {content : Text} {rejection : Rejection}
      (isGuide : path.extension? = some "kt".toList)
      (found : GuideFile.ofPath? settings.sources path = some file)
      (read : fs.read path = .ok content)
      (rejected : publisher.ofGuide settings file content = .error rejection) :
      Decided publisher settings fs path fs (.ok (.skipped rejection))
  | unplaced {file : GuideFile} {content : Text} {publication : Publication}
      (isGuide : path.extension? = some "kt".toList)
      (found : GuideFile.ofPath? settings.sources path = some file)
      (read : fs.read path = .ok content)
      (published : publisher.ofGuide settings file content = .ok publication)
      (unplaced : ∀ url, publication.directives.get? "URL".toList = some url →
        (Text.trim url).dropWhile (· = '/') = []) :
      Decided publisher settings fs path fs
        (.error (.missingDirective "URL".toList file.relativePath.slashed))
  /-- All files of the publication have been written. -/
  | generated {later : FileSystem} (g : Generation publisher settings fs path)
      (completed : (performAll fs g.plan.steps).result = .ok ())
      (left : later = (performAll fs g.plan.steps).fs)
      (listed : g.files.map Prod.fst =
        g.plan.outputs.page :: (g.plan.outputs.runnable ++ g.plan.outputs.exported))
      (change : fs.Change g.files (waysOf fs.here g.plan.steps) later) :
      Decided publisher settings fs path later (.ok (.generated g.plan.outputs))
  /-- Some first files of the publication have been written, and a step has failed then, before all
  of them were. -/
  | broken {later : FileSystem} {e : IoError} {before after : List Step} {step : Step}
      {next : Path × Text} {rest : List (Path × Text)} (g : Generation publisher settings fs path)
      (steps : g.plan.steps = before ++ step :: after)
      (files : g.files = writesOf before ++ next :: rest)
      (completed : (performAll fs before).result = .ok ())
      (failed : (step.perform (performAll fs before).fs).result = .error (.io e))
      (left : later = (step.perform (performAll fs before).fs).fs)
      (change : fs.Change (writesOf before) (waysOf fs.here (before ++ [step])) later) :
      Decided publisher settings fs path later (.error (.io e))

section Deciding

variable {publisher : Publisher} {settings : Settings} {fs : FileSystem} {path : Path}

/-- A guide that can be published is decided by how far its plan can be carried out. -/
theorem decided_of_generation (g : Generation publisher settings fs path) :
    Decided publisher settings fs path (processFile publisher settings fs path).fs
      (processFile publisher settings fs path).result := by
  rw [processFile_eq_performAll g]
  cases hsteps : (performAll fs g.plan.steps).result with
  | ok value =>
      cases value
      have hchange := (performed_performAll hsteps).change
      rw [g.writesOf_plan] at hchange
      exact .generated g hsteps rfl g.map_fst_files hchange
  | error failure =>
      obtain ⟨before, step, after, hplan, hbefore, hstep, hfs⟩ := exists_failed_step hsteps
      obtain ⟨⟨e, rfl⟩, hfailed⟩ := change_of_perform_error hstep
      have hchange := (performed_performAll hbefore).change.trans hfailed
      rw [(performed_performAll hbefore).change.here, List.append_nil, ← waysOf_append,
        ← hfs] at hchange
      have hwrites := g.endWithWrite_plan
      rw [hplan] at hwrites
      obtain ⟨next, rest, hrest⟩ := List.exists_cons_of_ne_nil hwrites.writesOf_ne_nil
      have hfiles : g.files = writesOf before ++ next :: rest := by
        rw [← g.writesOf_plan, hplan, writesOf_append, hrest]
      exact .broken g hplan hfiles hbefore hstep hfs hchange

/-- **The rules by which candidates are decided** hold for every candidate. -/
theorem decided_processFile (publisher : Publisher) (settings : Settings) (fs : FileSystem)
    (path : Path) :
    Decided publisher settings fs path (processFile publisher settings fs path).fs
      (processFile publisher settings fs path).result := by
  by_cases hlegacy : path.extension? = some "md".toList
  · rw [processFile_of_legacy hlegacy]
    exact .legacy hlegacy
  by_cases hguide : path.extension? = some "kt".toList
  · cases hfound : GuideFile.ofPath? settings.sources path with
    | none =>
        rw [processFile_of_outside hguide hfound]
        exact .outside hguide (GuideFile.ofPath?_eq_none_iff.1 hfound)
    | some file =>
        cases hread : fs.read path with
        | error e =>
            rw [processFile_of_unreadable hguide hfound hread]
            exact .unreadable hguide hfound hread
        | ok content =>
            cases hpublished : publisher.ofGuide settings file content with
            | error rejection =>
                rw [processFile_of_rejected hguide hfound hread hpublished]
                exact .rejected hguide hfound hread hpublished
            | ok publication =>
                cases hplace : publishPlace? publication.directives with
                | none =>
                    rw [processFile_of_unplaced hguide hfound hread hpublished hplace]
                    exact .unplaced hguide hfound hread hpublished
                      (publishPlace?_eq_none_iff.1 hplace)
                | some place =>
                    exact decided_of_generation
                      ⟨file, content, publication, place, hguide, hfound, hread, hpublished, hplace⟩
  · rw [processFile_of_ignored hlegacy hguide]
    exact .ignored hlegacy hguide

/-- What does not write leaves the files as they were. -/
theorem eq_of_decided {later : FileSystem} {result : Except Failure Outcome}
    (h : Decided publisher settings fs path later result)
    (hok : ∀ outputs, result ≠ .ok (.generated outputs)) (hio : ∀ e, result ≠ .error (.io e)) :
    later = fs := by
  cases h with
  | generated g => exact absurd rfl (hok _)
  | broken g => exact absurd rfl (hio _)
  | legacy | ignored | outside | unreadable | rejected | unplaced => rfl

end Deciding

/-- **The rules by which candidates are decided, and failed runs.** Every candidate is decided by
the rules. A run that fails has succeeded with the candidates before the one at which it fails; what
it leaves is what they have left, but for what the rules say of the failed candidate, and that is
nothing unless an operation on files has failed. -/
theorem decided_and_exists_failed_candidate (publisher : Publisher) (settings : Settings)
    (fs : FileSystem) :
    (∀ path, Decided publisher settings fs path (processFile publisher settings fs path).fs
      (processFile publisher settings fs path).result) ∧
    ∀ paths failure, (generate publisher settings fs paths).result = .error failure →
      ∃ before path after report, paths = before ++ path :: after ∧
        (generate publisher settings fs before).result = .ok report ∧
        Decided publisher settings (generate publisher settings fs before).fs path
          (generate publisher settings fs paths).fs (.error failure) ∧
        ((∀ e, failure ≠ .io e) →
          (generate publisher settings fs paths).fs =
            (generate publisher settings fs before).fs) := by
  refine ⟨decided_processFile publisher settings fs, fun paths failure h => ?_⟩
  obtain ⟨before, path, after, report, hpaths, hbefore, hfailed, hfs⟩ := exists_failed_candidate h
  have hdecided := decided_processFile publisher settings
    (generate publisher settings fs before).fs path
  rw [hfailed, ← hfs] at hdecided
  refine ⟨before, path, after, report, hpaths, hbefore, hdecided, fun hio => ?_⟩
  exact eq_of_decided hdecided (fun outputs habsurd => nomatch habsurd)
    fun e he => hio e (Except.error.inj he)

/-! ### Small projects -/

/-- The settings under which guides lie in `src`. -/
def Settings.plain : Settings :=
  { sources := ⟨"src".toList⟩
    pages := ⟨"pages".toList⟩
    runnable := ⟨"run".toList⟩
    exported := ⟨"out".toList⟩ }

/-- The file system with the given directories, each behind those that it lies in, and files of the
given names and contents in them. -/
def FileSystem.ofTree (directories : List Location) (files : List (Location × Text × Text)) :
    FileSystem where
  tree := files.foldl (fun tree file => tree.put file.1 file.2.1 (.file (.text file.2.2)))
    (directories.foldl (fun tree place =>
      tree.put place.dropLast (place.getLast?.getD []) .directory) FileTree.empty)
  here := []

/-- The file system with files of the given names and contents in `src`. -/
def FileSystem.ofSources (files : List (Text × Text)) : FileSystem :=
  .ofTree [["src".toList]] (files.map fun file => (["src".toList], file))

/-- The guide whose directive `URL` names the given place, with one program behind the given
marker. -/
def guideAt (place marker : Text) : Text :=
  "@file:URL(\"".toList ++ place ++ "\")\nfun main() \x7b\n@".toList ++ marker ++
    "\nf()\n\x7d\n".toList

/-- The program of such a guide that lies in no directory below the root of the guides. -/
def programOfGuide : Text :=
  "package examples\n\nfun main() \x7b\n    f()\n\x7d\n".toList

/-- The file system with guides of the given names in `src`, which name the given places. Each has a
program that is shown, run and exported. -/
def FileSystem.ofGuides (guides : List (Text × Text)) : FileSystem :=
  .ofSources (guides.map fun guide => (guide.1, guideAt guide.2 "Code".toList))

/-- Two guides that name the same page, a guide that is empty, and a file that is no guide. -/
def FileSystem.sharedPage : FileSystem :=
  .ofSources [("a.kt".toList, guideAt "p".toList "Code".toList),
    ("b.kt".toList, guideAt "/p".toList "Code".toList), ("c.kt".toList, []), ("d.txt".toList, [])]

/-- All files of that project. -/
def candidatesOfSharedPage : List Path :=
  [⟨"src/a.kt".toList⟩, ⟨"src/b.kt".toList⟩, ⟨"src/c.kt".toList⟩, ⟨"src/d.txt".toList⟩]

/-- What a run over them reports. -/
def reportOfSharedPage : Report where
  pages := [⟨"pages/p.markdown".toList⟩, ⟨"pages/p.markdown".toList⟩]
  runnable := [⟨"run/P000.kt".toList⟩, ⟨"run/P000.kt".toList⟩]
  exported := [⟨"out/a000.kt".toList⟩, ⟨"out/b000.kt".toList⟩]
  skipped := [⟨⟨"c.kt".toList⟩, ⟨1, "missing `fun main() \x7b` entry point".toList⟩⟩]
  ignored := 1

/-- The page of the second guide would lie in a directory where the first has its page. -/
theorem exists_failed_candidate_at_page :
    ∃ before path after report,
      [⟨"src/a.kt".toList⟩, ⟨"src/b.kt".toList⟩] = before ++ path :: after ∧
      (generate Guide.publish .plain
        (.ofGuides [("a.kt".toList, "p".toList), ("b.kt".toList, "p.markdown/q".toList)])
        before).result = .ok report ∧
      Decided Guide.publish .plain
        (generate Guide.publish .plain
          (.ofGuides [("a.kt".toList, "p".toList), ("b.kt".toList, "p.markdown/q".toList)])
          before).fs
        path
        (generate Guide.publish .plain
          (.ofGuides [("a.kt".toList, "p".toList), ("b.kt".toList, "p.markdown/q".toList)])
          [⟨"src/a.kt".toList⟩, ⟨"src/b.kt".toList⟩]).fs
        (.error (.io .alreadyExists)) := by
  have hfailed : (generate Guide.publish .plain
      (.ofGuides [("a.kt".toList, "p".toList), ("b.kt".toList, "p.markdown/q".toList)])
      [⟨"src/a.kt".toList⟩, ⟨"src/b.kt".toList⟩]).result = .error (.io .alreadyExists) := by
    decide +kernel
  obtain ⟨before, path, after, report, hpaths, hbefore, hdecided, -⟩ :=
    (decided_and_exists_failed_candidate _ _ _).2 _ _ hfailed
  exact ⟨before, path, after, report, hpaths, hbefore, hdecided⟩

end Guidebook
