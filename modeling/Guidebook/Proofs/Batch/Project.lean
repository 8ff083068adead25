import Guidebook.Proofs.Batch.Relocation

/-!
# Where a Project Lives

All that is generated for a project depends on its root alone: the configuration is looked for in
it, the settings are read from within it, and so are the guides and all that is generated from them.
It does not depend on where the root is. Where the same lies beneath two roots, the same is found,
and the same is generated; only the paths that are reported begin differently.

This is so as long as nothing leads out of the project: neither a configured directory nor the place
that a guide names. A guide counts as it is when the run comes to it. A program that is written over
a guide can itself be one, and name any place: what lies there, outside of the project, then makes a
difference.

## Main results

* `Command.runGenerate_elsewhere`: the command does the same wherever a project lives.
* `Project.placesInward_of_apart`: where directories lie apart, it is enough to look at the guides
  as they are at first.
* `Project.generate_elsewhere`: **where a project lives** makes no difference.
* `Project.generate_differs_elsewhere`: it can, where a program is written over a guide.
-/

namespace Guidebook

/-! ### What a project generates -/

namespace Project

/-- The configuration of the project at a root, or the default if it has none. -/
def config (fs : FileSystem) (root : Path) : Except Failure Config :=
  (Config.load fs root).map fun (config, _) => config.getD {}

/-- The configuration of the project at a root, and the candidates for its guides. -/
def prepare (fs : FileSystem) (root : Path) : Except Failure (Config × List Path) := do
  let config ← config fs root
  let settings := Settings.ofConfig root config
  let exclude ← ExcludeSet.ofPatterns settings.exclude
  let found ← Scan.below fs settings.sources exclude
  return (config, found.files)

/-- The run over the guides of the project at a root. -/
def generate (publisher : Publisher) (fs : FileSystem) (root : Path) : Run Report :=
  match prepare fs root with
  | .error failure => .fail fs failure
  | .ok (config, paths) =>
    Guidebook.generate publisher (Settings.ofConfig root config) fs paths

end Project

/-- **The command** that is given nothing else prints the summary of this run. -/
theorem Command.runGenerate_eq (fs : FileSystem) (root : Path) :
    runGenerate fs root false {} =
      let run := Project.generate Guide.publish fs root
      match run.result with
      | .error failure => failed run.fs [] failure
      | .ok report =>
        ⟨run.fs, if report.isOk then 0 else 1,
          reportLines report root false, warningLines report⟩ := by
  have hsettings : settings fs root {} =
      (Project.config fs root).map (Settings.ofConfig root) := by
    rw [settings, Project.config]
    cases Config.load fs root with
    | error failure => rfl
    | ok loaded =>
        simp only [Except.map, override, Option.none_or, Option.map_none, Option.getD_none,
          ite_self]
  rw [runGenerate, hsettings, Project.generate, Project.prepare]
  cases Project.config fs root with
  | error failure => rfl
  | ok config =>
      simp only [Except.map, bind, Except.bind]
      cases ExcludeSet.ofPatterns (Settings.ofConfig root config).exclude with
      | error failure => rfl
      | ok exclude =>
          simp only
          cases Scan.below fs (Settings.ofConfig root config).sources exclude with
          | error failure => rfl
          | ok found => rfl

/-! ### Configurations within a root -/

/-- No configured directory leads out of the project. -/
structure Config.Inward (config : Config) : Prop where
  sources : config.sources.root.Inward
  pages : config.output.pages.Inward
  runnable : config.output.runnable.Inward
  exported : config.output.exported.Inward

instance (config : Config) : Decidable config.Inward :=
  decidable_of_iff (config.sources.root.Inward ∧ config.output.pages.Inward ∧
      config.output.runnable.Inward ∧ config.output.exported.Inward)
    ⟨fun h => ⟨h.1, h.2.1, h.2.2.1, h.2.2.2⟩,
      fun h => ⟨h.sources, h.pages, h.runnable, h.exported⟩⟩

/-- The settings at a root are those without one, read from within it. -/
theorem Settings.ofConfig_eq_within (root : Path) (config : Config) :
    ofConfig root config = (ofConfig ⟨[]⟩ config).within root := by
  simp only [ofConfig, within, Path.join_of_empty]

/-- If no configured directory leads out of the project, no directory of its settings does. -/
theorem Settings.inward_ofConfig {config : Config} (h : config.Inward) :
    (ofConfig ⟨[]⟩ config).Inward where
  sources := by simpa only [ofConfig, Path.join_of_empty] using h.sources
  pages := by simpa only [ofConfig, Path.join_of_empty] using h.pages
  runnable := by simpa only [ofConfig, Path.join_of_empty] using h.runnable
  exported := by simpa only [ofConfig, Path.join_of_empty] using h.exported
  cited := rfl

/-- Where all tests agree, the same is found. -/
theorem find?_congr {places : List Path} {test other : Path → Bool}
    (h : ∀ place ∈ places, test place = other place) : places.find? test = places.find? other := by
  induction places with
  | nil => rfl
  | cons place places ih =>
      obtain ⟨hplace, hplaces⟩ := List.forall_mem_cons.1 h
      rw [List.find?_cons, List.find?_cons, hplace, ih hplaces]

namespace FileSystem.SameWithin

variable {fs other : FileSystem} {root there : Path}

/-- **The same configuration** is found within both roots. -/
theorem config_eq (h : fs.SameWithin root other there) :
    Project.config other there = Project.config fs root := by
  have hinward : ∀ place ∈ Config.places, place.Inward := by decide
  have hfile : ∀ (fs : FileSystem) (root : Path), Config.file? fs root =
      (Config.places.find? fun place => fs.isFile (root.join place)).map root.join := by
    intro fs root
    rw [Config.file?, List.find?_map]
    rfl
  have hsame : (Config.places.find? fun place => other.isFile (there.join place)) =
      Config.places.find? fun place => fs.isFile (root.join place) :=
    find?_congr fun place hplace => h.isFile_eq (hinward place hplace)
  rw [Project.config, Project.config, Config.load, Config.load, hfile, hfile, hsame]
  cases hplace : Config.places.find? fun place => fs.isFile (root.join place) with
  | none => rfl
  | some place =>
      simp only [Option.map_some]
      rw [h.read_eq (hinward place (List.mem_of_find?_eq_some hplace))]
      cases fs.read (root.join place) with
      | error e => rfl
      | ok content =>
          simp only
          cases Config.parse content <;> rfl

/-- **The same guides** are found with the same configuration within both roots. -/
theorem prepare (h : fs.SameWithin root other there) (hnamed : fs.WellNamed)
    (hnames : other.WellNamed)
    (hinward : ∀ config, Project.config fs root = .ok config → config.Inward) :
    (∃ e, Project.prepare fs root = .error e ∧ Project.prepare other there = .error e) ∨
      ∃ config : Config, config.Inward ∧ ∃ places : List (List Text),
        (∀ names ∈ places, Scan.LeadsDown names) ∧
        Project.prepare fs root =
          .ok (config, places.map (root.join config.sources.root).descend) ∧
        Project.prepare other there =
          .ok (config, places.map (there.join config.sources.root).descend) := by
  rw [Project.prepare, Project.prepare, h.config_eq]
  cases hconfig : Project.config fs root with
  | error e => exact .inl ⟨e, rfl, rfl⟩
  | ok config =>
      simp only [bind, Except.bind, Settings.ofConfig]
      cases ExcludeSet.ofPatterns config.sources.exclude with
      | error e => exact .inl ⟨e, rfl, rfl⟩
      | ok exclude =>
          have hinward := hinward config hconfig
          obtain ⟨_, hfound⟩ := Scan.files_below fs (root.join config.sources.root) exclude
          obtain ⟨_, hthere⟩ := Scan.files_below other (there.join config.sources.root) exclude
          obtain ⟨places, hplaces, hfiles, hfilesThere⟩ :=
            Scan.exists_files_below h hnamed hinward.sources hnames hfound hthere
          refine .inr ⟨config, hinward, places, hplaces, ?_, ?_⟩
          · simp only [hfound, ← hfiles]
            rfl
          · simp only [hthere, ← hfilesThere]
            rfl

end FileSystem.SameWithin

/-! ### Projects within two roots -/

/-- The candidates have been found below the root of the guides. -/
theorem Project.exists_scan {fs : FileSystem} {root : Path} {found : Config} {paths : List Path}
    (h : prepare fs root = .ok (found, paths)) : ∃ exclude scan,
      Scan.below fs (Settings.ofConfig root found).sources exclude = .ok scan ∧
        scan.files = paths := by
  rw [prepare] at h
  cases hconfig : config fs root with
  | error e => rw [hconfig] at h; cases h
  | ok config =>
      rw [hconfig] at h
      simp only [bind, Except.bind] at h
      cases hexclude : ExcludeSet.ofPatterns (Settings.ofConfig root config).exclude with
      | error e => rw [hexclude] at h; cases h
      | ok exclude =>
          rw [hexclude] at h
          cases hscan : Scan.below fs (Settings.ofConfig root config).sources exclude with
          | error e => simp only [hscan] at h; cases h
          | ok scan =>
              simp only [hscan] at h
              obtain ⟨rfl, rfl⟩ := Prod.mk.inj (Except.ok.inj h)
              exact ⟨exclude, scan, hscan, rfl⟩

/-- **Where the directories of a project lie apart**, its guides are met as they are at first. -/
theorem Project.placesInward_of_apart {publisher : Publisher} {fs : FileSystem} {root : Path}
    {found : Config} {paths : List Path} (hnamed : fs.WellNamed)
    (hprepare : prepare fs root = .ok (found, paths))
    (hapart : (Settings.ofConfig root found).Apart fs.here)
    (hplaces : ∀ path ∈ paths,
      ∀ place ∈ placeFor? publisher (Settings.ofConfig root found) fs path, .up ∉ place.moves) :
    PlacesInward publisher (Settings.ofConfig root found) fs paths := by
  obtain ⟨exclude, scan, hscan, rfl⟩ := exists_scan hprepare
  refine Guidebook.placesInward_of_apart hapart (fun path hpath => ?_) hplaces
  exact .of_below hnamed hscan hpath fun place hplace =>
    GuideFile.staysBelow_directoryOf (hplaces path hpath place hplace)

/-- **The runs** over the guides of the projects at both roots leave the same, and end in the same
way. -/
theorem FileSystem.SameWithin.project {publisher : Publisher} {fs other : FileSystem}
    {root there : Path} (h : fs.SameWithin root other there) (hnamed : fs.WellNamed)
    (hnames : other.WellNamed)
    (hconfig : ∀ found, Project.config fs root = .ok found → found.Inward)
    (hplaces : ∀ found paths, Project.prepare fs root = .ok (found, paths) →
      PlacesInward publisher (Settings.ofConfig root found) fs paths) :
    (Project.generate publisher fs root).SameWithin Report.seenFrom? root there
      (Project.generate publisher other there) := by
  rcases h.prepare hnamed hnames hconfig with ⟨e, hfs, hother⟩ |
    ⟨config, hinward, places, hdown, hfs, hother⟩
  · simp only [Project.generate, hfs, hother]
    exact ⟨h, .error rfl⟩
  · have hmet := hplaces _ _ hfs
    have hsources : config.sources.root = (Settings.ofConfig ⟨[]⟩ config).sources :=
      (Path.join_of_empty rfl _).symm
    simp only [Project.generate, hfs, hother]
    rw [Settings.ofConfig_eq_within root, hsources] at hmet ⊢
    rw [Settings.ofConfig_eq_within there]
    exact h.generate (Settings.inward_ofConfig hinward) hdown hmet

/-- As many files are seen from a root as there are. -/
theorem length_of_mapM_relativeTo? {root : Path} {paths seen : List Path}
    (h : paths.mapM (·.relativeTo? root) = some seen) : seen.length = paths.length := by
  induction paths generalizing seen with
  | nil =>
      obtain rfl := Option.some.inj h
      rfl
  | cons path paths ih =>
      rw [List.mapM_cons] at h
      obtain ⟨first, -, h⟩ := Option.bind_eq_some_iff.1 h
      obtain ⟨others, hothers, h⟩ := Option.bind_eq_some_iff.1 h
      obtain rfl := Option.some.inj h
      rw [List.length_cons, List.length_cons, ih hothers]

namespace Command

/-- What is printed of a run counts its files, and so depends on what is seen of it alone. -/
theorem reportLines_of_seenFrom? {root : Path} {report seen : Report}
    (h : report.seenFrom? root = some seen) :
    reportLines report root false = reportLines seen ⟨[]⟩ false ∧
      warningLines report = warningLines seen ∧ report.isOk = seen.isOk := by
  obtain ⟨hpages, hrunnable, hexported, hskipped, -⟩ := Report.seenFrom?_eq_some_iff.1 h
  have hok : report.isOk = seen.isOk := by rw [Report.isOk, Report.isOk, hskipped]
  have hpages := length_of_mapM_relativeTo? hpages
  have hrunnable := length_of_mapM_relativeTo? hrunnable
  have hexported := length_of_mapM_relativeTo? hexported
  have hsummary : summary report = summary seen := by
    unfold summary
    rw [hpages, hrunnable, hexported]
  refine ⟨?_, by rw [warningLines, warningLines, hskipped], hok⟩
  simp only [reportLines, hsummary, hok, hskipped, Bool.false_eq_true, if_false]

/-- **The command** prints the same in both projects and ends with the same exit code, and it leaves
the same in them. -/
theorem runGenerate_elsewhere {fs other : FileSystem} {root there : Path}
    (h : fs.SameWithin root other there) (hnamed : fs.WellNamed) (hnames : other.WellNamed)
    (hconfig : ∀ found, Project.config fs root = .ok found → found.Inward)
    (hplaces : ∀ found paths, Project.prepare fs root = .ok (found, paths) →
      PlacesInward Guide.publish (Settings.ofConfig root found) fs paths) :
    (runGenerate fs root false {}).fs.SameWithin root (runGenerate other there false {}).fs there ∧
      (runGenerate other there false {}).exitCode = (runGenerate fs root false {}).exitCode ∧
      (runGenerate other there false {}).output = (runGenerate fs root false {}).output ∧
      (runGenerate other there false {}).diagnostics =
        (runGenerate fs root false {}).diagnostics := by
  obtain ⟨hfs, hresult⟩ := h.project hnamed hnames hconfig hplaces
  rw [runGenerate_eq, runGenerate_eq]
  rcases hresult.failed_or_succeeded with ⟨e, eThere, hrun, hthere, hcode⟩ |
    ⟨report, reportThere, seen, hrun, hthere, hseen, hseenThere⟩
  · simp only [hrun, hthere, failed, hcode, and_self, and_true]
    exact hfs
  · obtain ⟨hlines, hwarnings, hok⟩ := reportLines_of_seenFrom? hseen
    obtain ⟨hlinesThere, hwarningsThere, hokThere⟩ := reportLines_of_seenFrom? hseenThere
    simp only [hrun, hthere]
    exact ⟨hfs, by rw [hok, hokThere], hlinesThere.trans hlines.symm,
      hwarningsThere.trans hwarnings.symm⟩

end Command

/-- **Where a project lives makes no difference.** Where the same lies beneath two roots, what is
generated for the projects at both fails for the same reason, or succeeds with the same summary as
it is seen from the roots; in either case, the same lies beneath both roots afterwards. Neither a
configured directory may lead out of the project, nor the place that a guide names when the run
comes to it: a run can write over a guide. -/
theorem Project.generate_elsewhere {publisher : Publisher} {fs other : FileSystem}
    {root there : Path} (h : fs.SameWithin root other there) (hnamed : fs.WellNamed)
    (hnames : other.WellNamed)
    (hconfig : ∀ found, config fs root = .ok found → found.Inward)
    (hplaces : ∀ found paths, prepare fs root = .ok (found, paths) →
      PlacesInward publisher (Settings.ofConfig root found) fs paths) :
    (generate publisher other there).fs.seenFrom there =
        (generate publisher fs root).fs.seenFrom root ∧
      ((∃ e eThere : Failure, (generate publisher fs root).result = .error e ∧
          (generate publisher other there).result = .error eThere ∧ eThere.code = e.code) ∨
        ∃ report reportThere seen : Report,
          (generate publisher fs root).result = .ok report ∧
          (generate publisher other there).result = .ok reportThere ∧
          report.seenFrom? root = some seen ∧ reportThere.seenFrom? there = some seen) := by
  have hrun := h.project hnamed hnames hconfig hplaces
  exact ⟨hrun.fs.same, hrun.result.failed_or_succeeded⟩

/-- A file system with the given directories, and a project at a root in them: a configuration, and
guides in a directory `g`. -/
def projectAt (directories : List Location) (root : Location) (configuration : Text)
    (guides : List (Text × Text)) : FileSystem :=
  .ofTree (directories ++ [root, root ++ ["g".toList]])
    ((root, "dokgen.toml".toList, configuration) ::
      guides.map fun guide => (root ++ ["g".toList], guide))

/-- A project with one guide. -/
def projectHere : FileSystem :=
  projectAt [] ["p".toList] "[sources]\nroot = \"g\"\n".toList
    [("x.kt".toList, guideAt "u/p".toList "Application".toList)]

/-- The same project, one directory further down. -/
def projectThere : FileSystem :=
  projectAt [["q".toList]] ["q".toList, "r".toList] "[sources]\nroot = \"g\"\n".toList
    [("x.kt".toList, guideAt "u/p".toList "Application".toList)]

/-- Both projects generate the same. -/
theorem Project.generate_elsewhere_of_projectThere :
    projectHere.SameWithin ⟨"p".toList⟩ projectThere ⟨"q/r".toList⟩ ∧
    (generate Guide.publish projectThere ⟨"q/r".toList⟩).fs.seenFrom ⟨"q/r".toList⟩ =
      (generate Guide.publish projectHere ⟨"p".toList⟩).fs.seenFrom ⟨"p".toList⟩ ∧
    ∃ report reportThere seen : Report,
      (generate Guide.publish projectHere ⟨"p".toList⟩).result = .ok report ∧
      (generate Guide.publish projectThere ⟨"q/r".toList⟩).result = .ok reportThere ∧
      report.seenFrom? ⟨"p".toList⟩ = some seen ∧
      reportThere.seenFrom? ⟨"q/r".toList⟩ = some seen := by
  have hconfig : config projectHere ⟨"p".toList⟩ = .ok { sources := ⟨⟨"g".toList⟩, []⟩ } := by
    decide +kernel
  have hprepare : prepare projectHere ⟨"p".toList⟩ =
      .ok ({ sources := ⟨⟨"g".toList⟩, []⟩ }, [⟨"p/g/x.kt".toList⟩]) := by
    decide +kernel
  have hsucceeds : (generate Guide.publish projectHere ⟨"p".toList⟩).result.toBool = true := by
    decide +kernel
  have hsame : projectHere.SameWithin ⟨"p".toList⟩ projectThere ⟨"q/r".toList⟩ := by
    decide +kernel
  have hinward : ∀ found, config projectHere ⟨"p".toList⟩ = .ok found → found.Inward := by
    intro found hfound
    obtain rfl := Except.ok.inj (hconfig.symm.trans hfound)
    decide +kernel
  have hplaces : ∀ found paths, prepare projectHere ⟨"p".toList⟩ = .ok (found, paths) →
      PlacesInward Guide.publish (Settings.ofConfig ⟨"p".toList⟩ found) projectHere paths := by
    intro found paths hfound
    obtain ⟨rfl, rfl⟩ := Prod.mk.inj (Except.ok.inj (hprepare.symm.trans hfound))
    exact placesInward_of_apart (by decide +kernel) hprepare (by decide +kernel)
      (by decide +kernel)
  obtain ⟨htree, hresult⟩ :=
    generate_elsewhere hsame (by decide +kernel) (by decide +kernel) hinward hplaces
  refine ⟨hsame, htree, hresult.resolve_left ?_⟩
  rintro ⟨e, -, hfailed, -⟩
  rw [hfailed] at hsucceeds
  cases hsucceeds

/-- A configuration with a directive in the public address, by which exported programs begin. They
go to where the guides are. -/
def addressWithDirective : Text :=
  ("[sources]\nroot = \"g\"\n[output]\ndocs = \"o\"\nexport = \"g\"\n[web]\n"
    ++ "root_url = \"\\n@file:URL(\\\"../../x\\\")\\n//h\"\n").toList

/-- Two guides, of which the first exports a program that is a guide itself. Its file is the second
guide. -/
def guidesOverwritten : List (Text × Text) :=
  [("a.kt".toList,
      "@file:URL(\"a\")\nfun main() \x7b\n@Code.Export @Text \"\"\"t\"\"\"\n\x7d\n".toList),
    ("a000.kt".toList, guideAt "b".toList "Code".toList)]

/-- A project with these guides, beside a directory where the page of the second one is to go. -/
def overwrittenHere : FileSystem :=
  projectAt [["x.markdown".toList]] ["p".toList] addressWithDirective guidesOverwritten

/-- The same project, one directory further down, where the page is not in the way. -/
def overwrittenThere : FileSystem :=
  projectAt [["q".toList]] ["q".toList, "r".toList] addressWithDirective guidesOverwritten

/-- It is not enough that guides name no places that lead up **at first**. -/
theorem Project.generate_differs_elsewhere :
    overwrittenHere.SameWithin ⟨"p".toList⟩ overwrittenThere ⟨"q/r".toList⟩ ∧
    overwrittenHere.WellNamed ∧ overwrittenThere.WellNamed ∧
    (∃ found paths, prepare overwrittenHere ⟨"p".toList⟩ = .ok (found, paths) ∧ found.Inward ∧
      ∀ path ∈ paths, ∀ place ∈ placeFor? Guide.publish (Settings.ofConfig ⟨"p".toList⟩ found)
        overwrittenHere path, .up ∉ place.moves) ∧
    (generate Guide.publish overwrittenHere ⟨"p".toList⟩).result = .error (.io .isADirectory) ∧
    (generate Guide.publish overwrittenThere ⟨"q/r".toList⟩).result =
      .ok { Report.empty with
        pages := [⟨"q/r/o/a.markdown".toList⟩, ⟨"q/r/o/../../x.markdown".toList⟩]
        exported := [⟨"q/r/g/a000.kt".toList⟩] } := by
  refine ⟨by decide +kernel, by decide +kernel, by decide +kernel,
    ⟨{ sources := ⟨⟨"g".toList⟩, []⟩
       output := { pages := ⟨"o".toList⟩, exported := ⟨"g".toList⟩ }
       rootUrl := some "\n@file:URL(\"../../x\")\n//h".toList },
      [⟨"p/g/a.kt".toList⟩, ⟨"p/g/a000.kt".toList⟩], ?_, ?_, ?_⟩, ?_, ?_⟩
  all_goals decide +kernel

end Guidebook
