import Guidebook.Proofs.Batch.Sources
import Guidebook.Proofs.Scan.Relocation

/-!
# Runs in Different Places

The settings of a project are read from within its root. So is everything that a plan does, as long
as the directories of the settings and the place that the guide names do not lead up: then the plan
at a root is the plan without it, its paths read from within the root. Where the same lies beneath
two roots, carrying out the plan leaves the same beneath both, and so it goes on from one candidate
to the next. A run is the same but for the paths that it reports, and these are the same as they are
seen from the roots.

A run can write over a guide that it takes later. So the condition that guides name no places that
lead up is said of the guides as the run meets them. Where the directories lie apart, these are the
guides as they were at first.

## Main results

* `Plan.ofPublication_within`: **plans within a root**.
* `FileSystem.SameWithin.perform`, `FileSystem.SameWithin.performAll`: steps, carried out within two
  roots.
* `FileSystem.SameWithin.processFile`, `FileSystem.SameWithin.processAll`: **candidates and runs**.
-/

namespace Guidebook

/-! ### Plans within a root -/

/-- The settings at a root: their directories are read from within it. -/
def Settings.within (root : Path) (settings : Settings) : Settings :=
  { settings with
    sources := root.join settings.sources
    pages := root.join settings.pages
    runnable := root.join settings.runnable
    exported := root.join settings.exported }

/-- No directory leads up, and it is said by what sources are cited. -/
structure Settings.Inward (settings : Settings) : Prop where
  sources : settings.sources.Inward
  pages : settings.pages.Inward
  runnable : settings.runnable.Inward
  exported : settings.exported.Inward
  cited : settings.citationPrefix.isSome

/-- The step at a root. -/
def Step.within (root : Path) : Step → Step
  | .ensure directory => .ensure (root.join directory)
  | .write kind path content => .write kind (root.join path) content

/-- The step does not lead up, and does not write where it starts. -/
def Step.Inward : Step → Prop
  | .ensure directory => directory.Inward
  | .write _ path _ => path.Inward ∧ path.moves ≠ []

/-- The files at a root. -/
def Outputs.within (root : Path) (outputs : Outputs) : Outputs :=
  ⟨root.join outputs.page, outputs.runnable.map root.join, outputs.exported.map root.join⟩

/-- The plan at a root. -/
def Plan.within (root : Path) (plan : Plan) : Plan :=
  ⟨plan.steps.map (Step.within root), plan.outputs.within root⟩

section Plans

variable {directory : Path} {name extension : Text}

/-- A file in a directory that does not lead up does not lead up, and leads somewhere. -/
theorem inward_file (hdirectory : directory.Inward) (hname : Path.IsFileName name) :
    (directory.join ⟨name⟩).Inward ∧ (directory.join ⟨name⟩).moves ≠ [] := by
  refine ⟨hdirectory.join hname.inward, ?_⟩
  rw [Path.moves_join directory hname.isAbsolute, Path.moves_file hname]
  simp

/-- The paths of programs in a directory of the project are those in the directory, read from within
the root. -/
theorem programPaths_within (root : Path) (hdirectory : directory.Inward) (hname : '/' ∉ name)
    (hextension : '/' ∉ extension) (programs : List Text) :
    programPaths (root.join directory) name extension programs =
      (programPaths directory name extension programs).map root.join := by
  rw [programPaths_eq, programPaths_eq, List.map_map]
  exact List.map_congr_left fun index _ => Path.join_assoc root hdirectory.relative
    (isFileName_program hname hextension index).isAbsolute

/-- The steps for programs in a directory of the project are those for the directory, read from
within the root. -/
theorem programSteps_within (root directory : Path) (kind : OutputKind) (paths : List Path)
    (programs : List Text) :
    programSteps kind (root.join directory) (paths.map root.join) programs =
      (programSteps kind directory paths programs).map (Step.within root) := by
  rw [programSteps, programSteps]
  split
  · rfl
  · rw [List.map_cons, List.map_map, List.zip_map_left, List.map_map]
    rfl

/-- No step for programs in a directory that does not lead up leads up. -/
theorem inward_programSteps (kind : OutputKind) (hdirectory : directory.Inward) (hname : '/' ∉ name)
    (hextension : '/' ∉ extension) (programs : List Text) :
    ∀ step ∈ programSteps kind directory (programPaths directory name extension programs) programs,
      step.Inward := by
  intro step hstep
  rw [programSteps] at hstep
  split at hstep
  · cases hstep
  · rcases List.mem_cons.1 hstep with rfl | hstep
    · exact hdirectory
    · obtain ⟨⟨path, content⟩, hfile, rfl⟩ := List.mem_map.1 hstep
      obtain ⟨index, rfl⟩ := exists_index_of_mem_programPaths (List.of_mem_zip hfile).1
      exact inward_file hdirectory (isFileName_program hname hextension index)

/-- The directory of a place that does not lead up does not lead up. -/
theorem GuideFile.inward_directoryOf {place : Path} (h : place.Inward) :
    (directoryOf place).Inward where
  relative := isAbsolute_directoryOf h.relative
  straight := by
    rw [moves_directoryOf]
    exact fun hmem => h.straight (List.dropLast_subset _ hmem)

variable {settings : Settings} {file : GuideFile} {place : Path} (hsettings : settings.Inward)
  (hfile : file.relativeDirectory.Inward) (hname : '/' ∉ file.name)
  (hextension : '/' ∉ file.extension) (hplace : place.Inward)

/-- The name at the end of a place holds no slash. -/
theorem not_mem_placeName (place : Path) : '/' ∉ place.fileName?.getD [] := by
  cases hname : place.fileName? with
  | none => simp
  | some name => exact Path.not_mem_of_fileName? hname

include hsettings hfile hname hextension hplace

/-- **The plan at a root** is the plan without it, its paths read from within the root. -/
theorem Plan.ofPublication_within (root : Path) (publication : Publication) :
    ofPublication (settings.within root) file publication place =
      (ofPublication settings file publication place).within root := by
  have hdirectory := GuideFile.inward_directoryOf hplace
  have hcited : (settings.within root).citedPath file = settings.citedPath file := by
    obtain ⟨cited, hcited⟩ := Option.isSome_iff_exists.1 hsettings.cited
    rw [Settings.citedPath, Settings.citedPath, Settings.within, hcited]
    rfl
  have hpage := isFileName_pageOf (not_mem_placeName place)
  have hprogram := Text.not_mem_capitalize (not_mem_placeName place)
  have hpages := hsettings.pages.join hdirectory
  have hrunnable := hsettings.runnable.join hdirectory
  have hexported := hsettings.exported.join hfile
  rw [ofPublication, ofPublication, hcited]
  simp only [Settings.within, Plan.within, Outputs.within,
    Path.join_assoc root hsettings.pages.relative hdirectory.relative,
    Path.join_assoc root hsettings.runnable.relative hdirectory.relative,
    Path.join_assoc root hsettings.exported.relative hfile.relative,
    Path.join_assoc root hpages.relative hpage.isAbsolute,
    programPaths_within root hrunnable hprogram hextension,
    programPaths_within root hexported hname hextension, programSteps_within, List.map_append]
  rfl

/-- No step of the plan leads up. -/
theorem Plan.inward_ofPublication (publication : Publication) :
    ∀ step ∈ (ofPublication settings file publication place).steps, step.Inward := by
  have hdirectory := GuideFile.inward_directoryOf hplace
  have hpage := isFileName_pageOf (not_mem_placeName place)
  have hprogram := Text.not_mem_capitalize (not_mem_placeName place)
  intro step hstep
  rw [ofPublication] at hstep
  simp only [List.mem_append, List.mem_cons, List.not_mem_nil, or_false] at hstep
  rcases hstep with ((rfl | rfl) | hrunnable) | hexported
  · exact hsettings.pages.join hdirectory
  · exact inward_file (hsettings.pages.join hdirectory) hpage
  · exact inward_programSteps _ (hsettings.runnable.join hdirectory) hprogram hextension _ step
      hrunnable
  · exact inward_programSteps _ (hsettings.exported.join hfile) hname hextension _ step hexported

/-- No file of the plan leads up. -/
theorem Plan.inward_outputs (publication : Publication) :
    ∀ path ∈ (ofPublication settings file publication place).outputs.page ::
      ((ofPublication settings file publication place).outputs.runnable ++
        (ofPublication settings file publication place).outputs.exported), path.Inward := by
  have hdirectory := GuideFile.inward_directoryOf hplace
  have hpage := isFileName_pageOf (not_mem_placeName place)
  have hprogram := Text.not_mem_capitalize (not_mem_placeName place)
  intro path hpath
  rw [ofPublication, List.mem_cons, List.mem_append] at hpath
  rcases hpath with rfl | hrunnable | hexported
  · exact (inward_file (hsettings.pages.join hdirectory) hpage).1
  · obtain ⟨index, rfl⟩ := exists_index_of_mem_programPaths hrunnable
    exact (inward_file (hsettings.runnable.join hdirectory)
      (isFileName_program hprogram hextension index)).1
  · obtain ⟨index, rfl⟩ := exists_index_of_mem_programPaths hexported
    exact (inward_file (hsettings.exported.join hfile)
      (isFileName_program hname hextension index)).1

end Plans

/-! ### Steps within two roots -/

namespace FileSystem.SameWithin

variable {fs other : FileSystem} {root there : Path}

/-- **One step** within two roots has the same result, and leaves the same beneath them. -/
theorem perform (h : fs.SameWithin root other there) {step : Step} (hstep : step.Inward) :
    ((step.within there).perform other).result = ((step.within root).perform fs).result ∧
      ((step.within root).perform fs).fs.SameWithin root
        ((step.within there).perform other).fs there := by
  cases step with
  | ensure directory =>
      obtain ⟨herror, hsame⟩ := h.ensureDirectories hstep
      refine ⟨?_, ?_⟩
      · simp only [Step.within, perform_ensure, herror]
        split <;> rfl
      · simp only [Step.within, fs_perform_ensure]
        exact hsame
  | write kind path content =>
      simp only [Step.within, Step.perform]
      rcases h.write hstep.1 hstep.2 content with ⟨e, hwrite, hother⟩ |
        ⟨later, after, hwrite, hother, hsame⟩
      · rw [hwrite, hother]
        exact ⟨rfl, h⟩
      · rw [hwrite, hother]
        exact ⟨rfl, hsame⟩

/-- **Steps** within two roots have the same result, and leave the same beneath them. -/
theorem performAll (h : fs.SameWithin root other there) {steps : List Step}
    (hsteps : ∀ step ∈ steps, step.Inward) :
    (Guidebook.performAll other (steps.map (Step.within there))).result =
        (Guidebook.performAll fs (steps.map (Step.within root))).result ∧
      (Guidebook.performAll fs (steps.map (Step.within root))).fs.SameWithin root
        (Guidebook.performAll other (steps.map (Step.within there))).fs there := by
  induction steps generalizing fs other with
  | nil => exact ⟨rfl, h⟩
  | cons step steps ih =>
      obtain ⟨hstep, hsteps⟩ := List.forall_mem_cons.1 hsteps
      obtain ⟨hresult, hsame⟩ := h.perform hstep
      obtain ⟨hresults, hlater⟩ := ih hsame hsteps
      simp only [List.map_cons, Guidebook.performAll, Run.andThen, hresult]
      split
      · exact ⟨rfl, hsame⟩
      · exact ⟨hresults, hlater⟩

end FileSystem.SameWithin

/-! ### Results, seen from the root -/

namespace Outputs

/-- The files, as they are seen from a root, if they lie within it. -/
def seenFrom? (root : Path) (outputs : Outputs) : Option Outputs := do
  return { page := ← outputs.page.relativeTo? root
           runnable := ← outputs.runnable.mapM (·.relativeTo? root)
           exported := ← outputs.exported.mapM (·.relativeTo? root) }

end Outputs

/-- What becomes of a candidate, as it is seen from a root. -/
def Outcome.seenFrom? (root : Path) : Outcome → Option Outcome
  | .generated outputs => (outputs.seenFrom? root).map .generated
  | .skipped rejection => some (.skipped rejection)
  | .ignored => some .ignored

/-- The summary of a run, each of its paths as it is seen from a root, if all of them lie within
it. The sources that have been skipped are named as they are seen from the root of the guides. -/
def Report.seenFrom? (root : Path) (report : Report) : Option Report := do
  return { pages := ← report.pages.mapM (·.relativeTo? root)
           runnable := ← report.runnable.mapM (·.relativeTo? root)
           exported := ← report.exported.mapM (·.relativeTo? root)
           skipped := report.skipped
           ignored := report.ignored }

section Seen

variable {root : Path}

/-- Seen from the root, paths at a root do not depend on it. -/
theorem mapM_relativeTo? (hroot : root.text ≠ []) {paths : List Path}
    (h : ∀ path ∈ paths, path.isAbsolute = false) :
    (paths.map root.join).mapM (·.relativeTo? root) = some (paths.map Path.seen) := by
  induction paths with
  | nil => rfl
  | cons path paths ih =>
      obtain ⟨hpath, hpaths⟩ := List.forall_mem_cons.1 h
      rw [List.map_cons, List.mapM_cons, Path.relativeTo?_join hroot hpath, ih hpaths]
      rfl

/-- Seen from the root, files at a root do not depend on it. -/
theorem Outputs.seenFrom?_within (hroot : root.text ≠ []) {outputs : Outputs}
    (h : ∀ path ∈ outputs.page :: (outputs.runnable ++ outputs.exported), path.Inward) :
    (outputs.within root).seenFrom? root =
      some ⟨outputs.page.seen, outputs.runnable.map Path.seen, outputs.exported.map Path.seen⟩ := by
  obtain ⟨hpage, hprograms⟩ := List.forall_mem_cons.1 h
  obtain ⟨hrunnable, hexported⟩ := List.forall_mem_append.1 hprograms
  rw [seenFrom?, within, Path.relativeTo?_join hroot hpage.relative]
  simp only [mapM_relativeTo? hroot fun path hpath => (hrunnable path hpath).relative,
    mapM_relativeTo? hroot fun path hpath => (hexported path hpath).relative]
  rfl

/-- The files of a guide are seen from a root if each of them is. -/
theorem Outputs.seenFrom?_eq_some_iff {outputs seen : Outputs} :
    outputs.seenFrom? root = some seen ↔ outputs.page.relativeTo? root = some seen.page ∧
      outputs.runnable.mapM (·.relativeTo? root) = some seen.runnable ∧
      outputs.exported.mapM (·.relativeTo? root) = some seen.exported := by
  obtain ⟨page, runnable, exported⟩ := seen
  simp [seenFrom?, Option.bind_eq_some_iff]

/-- A summary is seen from a root if each of its files is; what has been skipped or ignored stays as
it is. -/
theorem Report.seenFrom?_eq_some_iff {report seen : Report} :
    report.seenFrom? root = some seen ↔
      report.pages.mapM (·.relativeTo? root) = some seen.pages ∧
      report.runnable.mapM (·.relativeTo? root) = some seen.runnable ∧
      report.exported.mapM (·.relativeTo? root) = some seen.exported ∧
      report.skipped = seen.skipped ∧ report.ignored = seen.ignored := by
  obtain ⟨pages, runnable, exported, skipped, ignored⟩ := seen
  simp [seenFrom?, Option.bind_eq_some_iff]

/-- A summary with one more file is seen as what is seen of both. -/
theorem Report.seenFrom?_record {report seen : Report} {outcome seenOutcome : Outcome}
    (hreport : report.seenFrom? root = some seen)
    (houtcome : outcome.seenFrom? root = some seenOutcome) (file : Path) :
    (report.record file outcome).seenFrom? root = some (seen.record file seenOutcome) := by
  obtain ⟨hpages, hrunnable, hexported, hskipped, hignored⟩ := seenFrom?_eq_some_iff.1 hreport
  cases outcome with
  | generated outputs =>
      obtain ⟨files, hfiles, rfl⟩ := Option.map_eq_some_iff.1 houtcome
      obtain ⟨hpage, hprograms, hprogramsExported⟩ := Outputs.seenFrom?_eq_some_iff.1 hfiles
      refine seenFrom?_eq_some_iff.2 ⟨?_, ?_, ?_, hskipped, hignored⟩
      · simp [record, List.mapM_append, hpages, hpage]
      · simp [record, List.mapM_append, hrunnable, hprograms]
      · simp [record, List.mapM_append, hexported, hprogramsExported]
  | skipped rejection =>
      obtain rfl := Option.some.inj houtcome
      exact seenFrom?_eq_some_iff.2
        ⟨hpages, hrunnable, hexported, by rw [record, hskipped]; rfl, hignored⟩
  | ignored =>
      obtain rfl := Option.some.inj houtcome
      exact seenFrom?_eq_some_iff.2
        ⟨hpages, hrunnable, hexported, hskipped, by rw [record, hignored]; rfl⟩

end Seen

/-- Seen from two roots, the results are the same, or failures for the same reason. -/
inductive SameResult {α : Type} (seenFrom? : Path → α → Option α) (root there : Path) :
    Except Failure α → Except Failure α → Prop
  | ok {value valueThere seen : α} (here : seenFrom? root value = some seen)
      (elsewhere : seenFrom? there valueThere = some seen) :
      SameResult seenFrom? root there (.ok value) (.ok valueThere)
  | error {e eThere : Failure} (code : eThere.code = e.code) :
      SameResult seenFrom? root there (.error e) (.error eThere)

/-- Both results are failures, or both are not. -/
theorem SameResult.failed_or_succeeded {α : Type} {seenFrom? : Path → α → Option α}
    {root there : Path} {result other : Except Failure α}
    (h : SameResult seenFrom? root there result other) :
    (∃ e eThere, result = .error e ∧ other = .error eThere ∧ eThere.code = e.code) ∨
      ∃ value valueThere seen, result = .ok value ∧ other = .ok valueThere ∧
        seenFrom? root value = some seen ∧ seenFrom? there valueThere = some seen := by
  cases h with
  | ok here elsewhere => exact .inr ⟨_, _, _, rfl, rfl, here, elsewhere⟩
  | error code => exact .inl ⟨_, _, rfl, rfl, code⟩

/-- Seen from two roots, the runs leave the same beneath them and have the same result. -/
structure Run.SameWithin {α : Type} (seenFrom? : Path → α → Option α) (root : Path) (run : Run α)
    (there : Path) (other : Run α) : Prop where
  fs : run.fs.SameWithin root other.fs there
  result : SameResult seenFrom? root there run.result other.result

/-- Activities without a value have the same result if it is equal. -/
theorem Run.SameWithin.of_unit {root there : Path} {run other : Run Unit}
    (hfs : run.fs.SameWithin root other.fs there) (hresult : other.result = run.result) :
    run.SameWithin (fun _ value => some value) root there other := by
  refine ⟨hfs, ?_⟩
  rw [hresult]
  cases run.result with
  | ok value => exact .ok rfl rfl
  | error e => exact .error rfl

/-- Runs that are the same go on in the same way. -/
theorem Run.SameWithin.andThen {α β : Type} {seenFrom? : Path → α → Option α}
    {seenNext? : Path → β → Option β} {root there : Path} {run other : Run α}
    {next nextThere : FileSystem → α → Run β} (h : run.SameWithin seenFrom? root there other)
    (hnext : ∀ value valueThere seen, run.result = .ok value → seenFrom? root value = some seen →
      seenFrom? there valueThere = some seen →
      (next run.fs value).SameWithin seenNext? root there (nextThere other.fs valueThere)) :
    (run.andThen next).SameWithin seenNext? root there (other.andThen nextThere) := by
  obtain ⟨fs, events, requests, result⟩ := run
  obtain ⟨fsThere, eventsThere, requestsThere, resultThere⟩ := other
  obtain ⟨hfs, hresult⟩ := h
  cases hresult with
  | ok here elsewhere =>
      obtain ⟨hlater, hresults⟩ := hnext _ _ _ rfl here elsewhere
      exact ⟨hlater, hresults⟩
  | error code => exact ⟨hfs, .error code⟩

/-- What is handed to the publisher does not make runs differ. -/
theorem Run.SameWithin.afterRequest {α : Type} {seenFrom? : Path → α → Option α} {root there : Path}
    {run other : Run α} (h : run.SameWithin seenFrom? root there other)
    (request requestThere : Request) :
    (Run.afterRequest request run).SameWithin seenFrom? root there
      (Run.afterRequest requestThere other) :=
  ⟨h.fs, h.result⟩

/-! ### Candidates within two roots -/

section Candidates

variable {names : List Text}

/-- The file name of what names lead down to is the last of them. -/
theorem fileName?_descend_eq (hnames : Scan.LeadsDown names) (root : Path) :
    (root.descend names).fileName? = names.getLast? := by
  obtain ⟨front, name, rfl⟩ := (List.eq_nil_or_concat' names).resolve_left hnames.1
  rw [Path.fileName?_descend (hnames.2 name (by simp)), List.getLast?_concat]

/-- What is known of a file below the root of the guides does not depend on the root. -/
theorem GuideFile.exists_ofPath?_descend (hnames : Scan.LeadsDown names) :
    ∃ file : GuideFile, ∀ sources : Path, sources.text ≠ [] →
      ofPath? sources (sources.descend names) =
        some { file with path := sources.descend names } := by
  refine ⟨⟨⟨[]⟩, ⟨Text.join ['/'] names⟩, directoryOf ⟨Text.join ['/'] names⟩,
    (names.getLast?.map Path.stemOf).getD [], (names.getLast?.bind Path.extensionOf?).getD []⟩,
    fun sources hsources => ?_⟩
  rw [ofPath?, Path.relativeTo?_descend hnames.2 hsources hnames.1, Path.stem?, Path.extension?,
    fileName?_descend_eq hnames]
  rfl

variable {publisher : Publisher} {settings : Settings} {fs other : FileSystem} {root there : Path}

/-- What the publisher is handed for a guide does not depend on the root. -/
theorem requestFor_within (settings : Settings) (root path : Path) (file : GuideFile)
    (content : Text) :
    requestFor (settings.within root) { file with path } content =
      requestFor settings file content := rfl

/-- **The publisher** answers the same wherever the project lives: it is told the path below the
root of the guides, and the path by which the guide is cited. -/
theorem ofGuide_within (publisher : Publisher) (settings : Settings) (root path : Path)
    (file : GuideFile) (content : Text) :
    publisher.ofGuide (settings.within root) { file with path } content =
      publisher.ofGuide settings file content := by
  rw [Publisher.ofGuide, requestFor_within]
  rfl

/-- Two candidates, each within its root: they read the same, and the same is known of both. -/
structure SameCandidate (settings : Settings) (fs : FileSystem) (root path : Path)
    (other : FileSystem) (there pathThere : Path) (file : GuideFile) : Prop where
  extension : pathThere.extension? = path.extension?
  read : other.read pathThere = fs.read path
  found : GuideFile.ofPath? (settings.within root).sources path = some { file with path }
  foundThere :
    GuideFile.ofPath? (settings.within there).sources pathThere =
      some { file with path := pathThere }
  within : file.relativeDirectory.Inward

/-- What names lead to below the roots of the guides are such candidates. -/
theorem FileSystem.SameWithin.exists_sameCandidate (h : fs.SameWithin root other there)
    (hsettings : settings.Inward) (hnames : Scan.LeadsDown names) :
    ∃ file, SameCandidate settings fs root ((root.join settings.sources).descend names) other there
      ((there.join settings.sources).descend names) file := by
  obtain ⟨hroot, hthere⟩ := h.text_ne_nil
  obtain ⟨file, hfile⟩ := GuideFile.exists_ofPath?_descend hnames
  have hfound := hfile _ (FileSystem.text_join_ne_nil hroot hsettings.sources.relative)
  obtain ⟨hmoves, hrelative⟩ := GuideFile.moves_relativeDirectory hnames.2 hfound
  refine ⟨file, ?_, ?_, hfound, hfile _ (FileSystem.text_join_ne_nil hthere
    hsettings.sources.relative), hrelative, ?_⟩
  · rw [Path.extension?, Path.extension?, fileName?_descend_eq hnames, fileName?_descend_eq hnames]
  · rw [Path.descend_join hnames.2 _ hsettings.sources.relative,
      Path.descend_join hnames.2 _ hsettings.sources.relative]
    exact h.read_eq (hsettings.sources.descend hnames.2)
  · rw [hmoves, List.mem_map]
    rintro ⟨name, -, habsurd⟩
    cases habsurd

variable {path pathThere : Path} {file : GuideFile} {content : Text} {publication : Publication}
  {place : Path}

/-- **A guide that can be published** is put in its place within both roots. -/
theorem FileSystem.SameWithin.generation (h : fs.SameWithin root other there)
    (hsettings : settings.Inward)
    (g : Generation publisher (settings.within root) fs path)
    (gThere : Generation publisher (settings.within there) other pathThere)
    (hfile : g.file = { file with path })
    (hfileThere : gThere.file = { file with path := pathThere })
    (hwithin : file.relativeDirectory.Inward) (hpublication : gThere.publication = g.publication)
    (hplaced : gThere.place = g.place) (hplace : g.place.Inward) :
    (Guidebook.processFile publisher (settings.within root) fs path).SameWithin
      Outcome.seenFrom? root there
      (Guidebook.processFile publisher (settings.within there) other pathThere) := by
  obtain ⟨hroot, hthere⟩ := h.text_ne_nil
  have hname : '/' ∉ file.name := by
    have hname := g.not_mem_name
    rwa [hfile] at hname
  have hextension : '/' ∉ file.extension := by
    have hextension := g.not_mem_extension
    rwa [hfile] at hextension
  have hplans := Plan.ofPublication_within hsettings hwithin hname hextension hplace
  have hplan : g.plan = (Plan.ofPublication settings file g.publication g.place).within root := by
    rw [Generation.plan, hfile, ← hplans]
    rfl
  have hplanThere :
      gThere.plan = (Plan.ofPublication settings file g.publication g.place).within there := by
    rw [Generation.plan, hfileThere, hpublication, hplaced, ← hplans]
    rfl
  have hinward := Plan.inward_ofPublication hsettings hwithin hname hextension hplace g.publication
  have hfiles := Plan.inward_outputs hsettings hwithin hname hextension hplace g.publication
  rw [processFile_of_generation g, processFile_of_generation gThere, hplan, hplanThere]
  generalize Plan.ofPublication settings file g.publication g.place = plan at hinward hfiles
  obtain ⟨hresult, hlater⟩ := h.performAll hinward
  have hgenerated : ∀ {root : Path}, root.text ≠ [] →
      (Outcome.generated (plan.within root).outputs).seenFrom? root = some (.generated
        ⟨plan.outputs.page.seen, plan.outputs.runnable.map Path.seen,
          plan.outputs.exported.map Path.seen⟩) :=
    fun hroot => congrArg (Option.map Outcome.generated) (Outputs.seenFrom?_within hroot hfiles)
  refine ((Run.SameWithin.of_unit hlater hresult).andThen fun _ _ _ _ _ _ => ?_).afterRequest _ _
  exact ⟨hlater, .ok (hgenerated hroot) (hgenerated hthere)⟩

/-- **One candidate** within two roots. -/
theorem FileSystem.SameWithin.processFile (h : fs.SameWithin root other there)
    (hsettings : settings.Inward)
    (hcandidate : SameCandidate settings fs root path other there pathThere file)
    (hplace : ∀ place ∈ placeFor? publisher (settings.within root) fs path, .up ∉ place.moves) :
    (Guidebook.processFile publisher (settings.within root) fs path).SameWithin
      Outcome.seenFrom? root there
      (Guidebook.processFile publisher (settings.within there) other pathThere) := by
  obtain ⟨hextension, hreads, hfound, hfoundThere, hwithin⟩ := hcandidate
  by_cases hlegacy : path.extension? = some "md".toList
  · rw [processFile_of_legacy hlegacy, processFile_of_legacy (hextension.trans hlegacy)]
    exact ⟨h, .error rfl⟩
  by_cases hguide : path.extension? = some "kt".toList
  swap
  · rw [processFile_of_ignored hlegacy hguide,
      processFile_of_ignored (hextension ▸ hlegacy) (hextension ▸ hguide)]
    exact ⟨h, .ok rfl rfl⟩
  have hguideThere := hextension.trans hguide
  cases hread : fs.read path with
  | error e =>
      rw [processFile_of_unreadable hguide hfound hread,
        processFile_of_unreadable hguideThere hfoundThere (hreads.trans hread)]
      exact ⟨h, .error rfl⟩
  | ok content =>
      have hreadThere := hreads.trans hread
      have hpublisher := ofGuide_within publisher settings root path file content
      have hpublisherThere := ofGuide_within publisher settings there pathThere file content
      cases hpublished : publisher.ofGuide settings file content with
      | error rejection =>
          rw [hpublished] at hpublisher hpublisherThere
          rw [processFile_of_rejected hguide hfound hread hpublisher,
            processFile_of_rejected hguideThere hfoundThere hreadThere hpublisherThere]
          exact ⟨h, .ok rfl rfl⟩
      | ok publication =>
          rw [hpublished] at hpublisher hpublisherThere
          cases hplaced : publishPlace? publication.directives with
          | none =>
              rw [processFile_of_unplaced hguide hfound hread hpublisher hplaced,
                processFile_of_unplaced hguideThere hfoundThere hreadThere hpublisherThere hplaced]
              exact ⟨h, .error rfl⟩
          | some place =>
              let g : Generation publisher (settings.within root) fs path :=
                ⟨_, content, publication, place, hguide, hfound, hread, hpublisher, hplaced⟩
              let gThere : Generation publisher (settings.within there) other pathThere :=
                ⟨_, content, publication, place, hguideThere, hfoundThere, hreadThere,
                  hpublisherThere, hplaced⟩
              exact h.generation hsettings g gThere rfl rfl hwithin rfl rfl
                ⟨isAbsolute_of_publishPlace? hplaced,
                  hplace place (placeFor?_of_generation g)⟩

end Candidates

/-! ### Runs within two roots -/

/-- No guide, as a run meets it, names a place with `..`. -/
def PlacesInward (publisher : Publisher) (settings : Settings) : FileSystem → List Path → Prop
  | _, [] => True
  | fs, path :: paths =>
    (∀ place ∈ placeFor? publisher settings fs path, .up ∉ place.moves) ∧
      match (processFile publisher settings fs path).result with
      | .ok _ => PlacesInward publisher settings (processFile publisher settings fs path).fs paths
      | .error _ => True

/-- Whether the places that guides name lead up can be seen by taking them one after the other. -/
instance PlacesInward.decidable (publisher : Publisher) (settings : Settings) :
    (fs : FileSystem) → (paths : List Path) → Decidable (PlacesInward publisher settings fs paths)
  | _, [] => .isTrue trivial
  | fs, path :: paths =>
    match hresult : (processFile publisher settings fs path).result with
    | .ok _ =>
      have := decidable publisher settings (processFile publisher settings fs path).fs paths
      decidable_of_iff ((∀ place ∈ placeFor? publisher settings fs path, .up ∉ place.moves) ∧
        PlacesInward publisher settings (processFile publisher settings fs path).fs paths)
        (by rw [PlacesInward, hresult])
    | .error _ =>
      decidable_of_iff (∀ place ∈ placeFor? publisher settings fs path, .up ∉ place.moves)
        (by rw [PlacesInward, hresult]; exact (and_iff_left trivial).symm)

/-- **Where the directories lie apart**, guides are met as they are at first, so it is enough to
look at these. -/
theorem placesInward_of_apart {publisher : Publisher} {settings : Settings} {fs : FileSystem}
    {paths : List Path} (hapart : settings.Apart fs.here)
    (hsettled : ∀ path ∈ paths, Settled publisher settings fs path)
    (hplaces : ∀ path ∈ paths, ∀ place ∈ placeFor? publisher settings fs path,
      .up ∉ place.moves) : PlacesInward publisher settings fs paths := by
  induction paths generalizing fs with
  | nil => trivial
  | cons path paths ih =>
      obtain ⟨hfirst, hothers⟩ := List.forall_mem_cons.1 hsettled
      obtain ⟨hplace, hrest⟩ := List.forall_mem_cons.1 hplaces
      refine ⟨hplace, ?_⟩
      split
      · next outcome hprocess =>
        obtain ⟨hhere, hunchanged⟩ := hfirst.unchanged hapart hprocess
        refine ih (hhere ▸ hapart) (fun other hother => (hunchanged other (hothers other hother)).2)
          fun other hother => ?_
        rw [placeFor?_congr (hunchanged other (hothers other hother)).1]
        exact hrest other hother
      · trivial

section Runs

variable {publisher : Publisher} {settings : Settings} {fs other : FileSystem} {root there : Path}

/-- **Candidates** within two roots are taken with the same results, one after the other. -/
theorem FileSystem.SameWithin.processAll (h : fs.SameWithin root other there)
    (hsettings : settings.Inward) {places : List (List Text)}
    (hplaces : ∀ names ∈ places, Scan.LeadsDown names)
    (hinward : PlacesInward publisher (settings.within root) fs
      (places.map (root.join settings.sources).descend)) {report reportThere seen : Report}
    (hreport : report.seenFrom? root = some seen)
    (hreportThere : reportThere.seenFrom? there = some seen) :
    (Guidebook.processAll publisher (settings.within root) fs report
      (places.map (root.join settings.sources).descend)).SameWithin Report.seenFrom? root there
      (Guidebook.processAll publisher (settings.within there) other reportThere
        (places.map (there.join settings.sources).descend)) := by
  induction places generalizing fs other report reportThere seen with
  | nil => exact ⟨h, .ok hreport hreportThere⟩
  | cons names places ih =>
      obtain ⟨hnames, hplaces⟩ := List.forall_mem_cons.1 hplaces
      obtain ⟨hroot, hthere⟩ := h.text_ne_nil
      obtain ⟨hfirst, hrest⟩ := hinward
      obtain ⟨file, hcandidate⟩ := h.exists_sameCandidate hsettings hnames
      have hprocess := h.processFile hsettings hcandidate hfirst
      have hfile : ∀ {root : Path}, root.text ≠ [] →
          ((root.join settings.sources).descend names).relativeTo?
            (settings.within root).sources = some ⟨Text.join ['/'] names⟩ := fun hroot =>
        Path.relativeTo?_descend hnames.2
          (FileSystem.text_join_ne_nil hroot hsettings.sources.relative) hnames.1
      rw [List.map_cons, List.map_cons, Guidebook.processAll, Guidebook.processAll]
      refine hprocess.andThen fun outcome outcomeThere seenOutcome hresult hseen hseenThere => ?_
      simp only [hfile hroot, hfile hthere, Option.getD_some]
      rw [hresult] at hrest
      exact ih hprocess.fs hplaces hrest (Report.seenFrom?_record hreport hseen _)
        (Report.seenFrom?_record hreportThere hseenThere _)

/-- **Runs** over what names lead to within two roots. -/
theorem FileSystem.SameWithin.generate (h : fs.SameWithin root other there)
    (hsettings : settings.Inward) {places : List (List Text)}
    (hplaces : ∀ names ∈ places, Scan.LeadsDown names)
    (hinward : PlacesInward publisher (settings.within root) fs
      (places.map (root.join settings.sources).descend)) :
    (Guidebook.generate publisher (settings.within root) fs
      (places.map (root.join settings.sources).descend)).SameWithin Report.seenFrom? root there
      (Guidebook.generate publisher (settings.within there) other
        (places.map (there.join settings.sources).descend)) := by
  have hempty : ∀ root, Report.empty.seenFrom? root = some .empty := fun _ => rfl
  have hrun := h.processAll hsettings hplaces hinward (hempty root) (hempty there)
  exact hrun.andThen fun _ _ _ _ hseen hseenThere => ⟨hrun.fs, .ok hseen hseenThere⟩

end Runs

end Guidebook
