import Guidebook.Proofs.Batch.Contents
import Guidebook.Proofs.Batch.Project

/-!
# Options and Configuration

The options of `generate` stand for what a configuration can say. The settings that come of them are
those of the configuration with its fields replaced, whether the sources are cited as the
configuration says, by its root of the guides, or by the root that is given in its place. All that
the command does follows from the settings and the files.

So a project can be generated with options, or the options can be entered in its configuration file
and left out. The configuration file is no guide, and where only its content differs, the command
prints the same and writes the same. Where there has been no such file, a new one can be in the way
of a directory or be a candidate itself; apart from that it makes no difference either.

## Main results

* `Command.override_eq`: **options are edits**: the settings are those of the edited configuration.
* `Command.generateWith_alike`: what files hold that are no guides makes no difference.
* `Command.generateWith_same`: files that are not beneath the root of the guides make none, as long
  as nothing fails.
* `Command.runGenerate_edited`: **generating with options** and from an edited configuration file.
-/

namespace Guidebook

/-! ### Edited configurations -/

/-- The configuration in which the fields are replaced for which options give a value. -/
def Config.edited (config : Config) (overrides : Overrides) : Config :=
  { config with
    sources := { config.sources with root := overrides.sources.getD config.sources.root }
    output :=
      { pages := overrides.pages.getD config.output.pages
        runnable := overrides.runnable.getD config.output.runnable
        exported := overrides.exported.getD config.output.exported }
    rootUrl := overrides.rootUrl.or config.rootUrl }

/-- No options, no edits. -/
theorem Config.edited_empty (config : Config) : config.edited {} = config := rfl

namespace Command

/-- A directory that is given or configured is read from within the root in either case. -/
theorem getD_map_join (root : Path) (given : Option Path) (configured : Path) :
    (given.map root.join).getD (root.join configured) = root.join (given.getD configured) := by
  cases given <;> rfl

/-- **Options are edits**: they lead to the settings of the configuration in which they are entered,
or of the default configuration if there is none. -/
theorem override_eq (root : Path) (config : Option Config) (overrides : Overrides) :
    override root config overrides =
      Settings.ofConfig root ((config.getD {}).edited overrides) := by
  -- Only how sources are cited depends on more than one field.
  have hcited : (override root config overrides).citationPrefix =
      (Settings.ofConfig root ((config.getD {}).edited overrides)).citationPrefix := by
    simp only [override, Settings.ofConfig, Config.edited]
    cases config with
    | none => cases overrides.sources <;> rfl
    | some config =>
        cases hcites : config.citationPrefix with
        | none => cases overrides.sources <;> simp [hcites]
        | some cited => simp [hcites]
  simp only [override, Settings.ofConfig, Config.edited, getD_map_join] at hcited ⊢
  rw [hcited]

/-- **The settings** with options are those of the configuration in which they are entered. -/
theorem settings_of_load {fs : FileSystem} {root : Path} {config : Option Config} {event : Event}
    (h : Config.load fs root = .ok (config, event)) (overrides : Overrides) :
    settings fs root overrides =
      .ok (Settings.ofConfig root ((config.getD {}).edited overrides)) := by
  rw [settings, h, ← override_eq]
  rfl

/-! ### Generating with settings -/

/-- Generates everything with the given settings. -/
def generateWith (settings : Settings) (fs : FileSystem) (root : Path) (verbose : Bool) :
    CommandResult :=
  match ExcludeSet.ofPatterns settings.exclude with
  | .error failure => failed fs [] failure
  | .ok exclude =>
    match Scan.below fs settings.sources exclude with
    | .error failure => failed fs [] failure
    | .ok found =>
      let scanned :=
        if verbose then
          ["Scanned ".toList ++ shown root settings.sources ++ ": ".toList
            ++ Text.ofNat found.files.length ++ " candidate file(s)".toList]
        else []
      let run := Guidebook.generate Guide.publish settings fs found.files
      match run.result with
      | .error failure => failed run.fs scanned failure
      | .ok report =>
        ⟨run.fs, if report.isOk then 0 else 1, scanned ++ reportLines report root verbose,
          warningLines report⟩

/-- **The command** generates with the settings that it finds. -/
theorem runGenerate_of_settings {fs : FileSystem} {root : Path} {overrides : Overrides}
    {found : Settings} (h : settings fs root overrides = .ok found) (verbose : Bool) :
    runGenerate fs root verbose overrides = generateWith found fs root verbose := by
  rw [runGenerate, h]
  rfl

end Command

/-- The commands print the same and end in the same way, and leave the same but for files at some
places. -/
structure CommandResult.Alike (spared : Location → Prop) (result other : CommandResult) : Prop where
  fs : result.fs.SameBut spared other.fs
  exitCode : other.exitCode = result.exitCode
  output : other.output = result.output
  diagnostics : other.diagnostics = result.diagnostics

namespace Command

/-- **Generating** does the same in file systems that differ only in what files hold that are no
guides. -/
theorem generateWith_alike {spared : Location → Prop} {fs other : FileSystem}
    (h : fs.SameButContents spared other)
    (hguides : ∀ here path, Format.ofPath? path = some .kotlin → ¬ spared (path.resolve here))
    (settings : Settings) (root : Path) (verbose : Bool) :
    (generateWith settings fs root verbose).Alike spared
      (generateWith settings other root verbose) := by
  rw [generateWith, generateWith]
  cases ExcludeSet.ofPatterns settings.exclude with
  | error failure => exact ⟨h.sameBut, rfl, rfl, rfl⟩
  | ok exclude =>
      simp only [Scan.below_congr h]
      cases Scan.below fs settings.sources exclude with
      | error failure => exact ⟨h.sameBut, rfl, rfl, rfl⟩
      | ok found =>
          have hrun := h.generate Guide.publish settings hguides found.files
          simp only [hrun.result]
          cases (Guidebook.generate Guide.publish settings fs found.files).result with
          | error failure => exact ⟨hrun.fs.sameBut, rfl, rfl, rfl⟩
          | ok report => exact ⟨hrun.fs.sameBut, rfl, rfl, rfl⟩

/-- Generating that does not fail has found candidates, and has a report. -/
theorem exists_report_of_exitCode {settings : Settings} {fs : FileSystem} {root : Path}
    {verbose : Bool} (h : (generateWith settings fs root verbose).exitCode ≠ 2) :
    ∃ exclude found report, ExcludeSet.ofPatterns settings.exclude = .ok exclude ∧
      Scan.below fs settings.sources exclude = .ok found ∧
      (Guidebook.generate Guide.publish settings fs found.files).result = .ok report := by
  rw [generateWith] at h
  cases hexclude : ExcludeSet.ofPatterns settings.exclude with
  | error failure => simp only [hexclude, failed] at h; exact absurd rfl h
  | ok exclude =>
      simp only [hexclude] at h
      cases hfound : Scan.below fs settings.sources exclude with
      | error failure => simp only [hfound, failed] at h; exact absurd rfl h
      | ok found =>
          simp only [hfound] at h
          cases hrun : (Guidebook.generate Guide.publish settings fs found.files).result with
          | error failure => simp only [hrun, failed] at h; exact absurd rfl h
          | ok report => exact ⟨exclude, found, report, rfl, hfound, hrun⟩

/-- **Generating** that does not fail does the same in file systems that differ only in files that
are not beneath the root of the guides. -/
theorem generateWith_same {spared : Location → Prop} {fs other : FileSystem} {settings : Settings}
    {root : Path} {verbose : Bool} (hsame : fs.SameBut spared other) (hnamed : fs.WellNamed)
    (hnames : other.WellNamed)
    (hsources : ∀ place, settings.sources.resolve fs.here <+: place → ¬ spared place)
    (h : (generateWith settings fs root verbose).exitCode ≠ 2)
    (hother : (generateWith settings other root verbose).exitCode ≠ 2) :
    (generateWith settings fs root verbose).Alike spared
      (generateWith settings other root verbose) := by
  obtain ⟨exclude, found, report, hexclude, hfound, hrun⟩ := exists_report_of_exitCode h
  obtain ⟨_, there, reportThere, hthese, hthere, hrunThere⟩ := exists_report_of_exitCode hother
  obtain rfl := Except.ok.inj (hexclude.symm.trans hthese)
  have hfiles : there.files = found.files := Scan.files_below_congr hnamed hnames hsame
    (fun place hplace => hsame.same place (hsources place hplace)) hfound hthere
  rw [hfiles] at hrunThere
  obtain ⟨rfl, hfs⟩ := generate_same hrun hrunThere hsame fun path hpath =>
    hsources _ (Scan.prefix_of_below hnamed hfound hpath)
  rw [generateWith, generateWith]
  simp only [hexclude, hfound, hthere, hfiles, hrun, hrunThere]
  exact ⟨hfs, rfl, rfl, rfl⟩

end Command

/-! ### Edited configuration files -/

section Files

variable {fs later : FileSystem} {root path : Path}

/-- The configuration file is no guide, which would have another extension. -/
theorem Config.resolve_ne_of_file? (h : file? fs root = some path) {guide : Path}
    (hguide : Format.ofPath? guide = some .kotlin) (here there : Location) :
    guide.resolve here ≠ path.resolve there := by
  have hplaces : ∀ place ∈ places, place.isAbsolute = false ∧
      place.extension? = some "toml".toList := by decide
  obtain ⟨place, hplace, rfl⟩ := List.mem_map.1 (List.mem_of_find?_eq_some h)
  obtain ⟨hrelative, hextension⟩ := hplaces place hplace
  obtain ⟨name, hname, htoml⟩ := Option.bind_eq_some_iff.1 hextension
  obtain ⟨last, hlast, hkt⟩ :=
    Option.bind_eq_some_iff.1 (Format.ofPath?_eq_kotlin_iff.1 hguide)
  intro heq
  rw [Path.resolve_join root hrelative] at heq
  have hnames := congrArg List.getLast? heq
  rw [Path.getLast?_walk_moves hname, Path.resolve, Path.getLast?_walk_moves hlast] at hnames
  rw [Option.some.inj hnames, htoml] at hkt
  exact absurd hkt (by decide)

/-- An edited configuration file is the configuration file of the project. -/
theorem Config.load_of_write (h : file? fs root = some path) {t : Text} {config : Config}
    (hparse : parse t = .ok config) (hwrite : fs.write path (.text t) = .ok later) :
    load later root = .ok (some config, .configLoaded path) := by
  have hfile : fs.isFile path = true := List.find?_some h
  have hsame := FileSystem.sameButContents_of_write hwrite hfile
  have hplace : file? later root = some path := by
    rw [← h, file?, file?]
    exact find?_congr fun place _ => hsame.isFile_eq place
  have hread : later.read path = .ok t := by
    refine FileSystem.read_ok_iff.2 ⟨_, FileSystem.locate_of_write hwrite, ?_⟩
    exact ((FileSystem.change_write hwrite).written _ t (by simp [lastWrite?_singleton])).2
  rw [load, hplace]
  simp only [hread, hparse]
  rfl

/-- What is written at a path has a proper name. -/
theorem FileSystem.WellNamed.write (h : fs.WellNamed) {t : Text}
    (hwrite : fs.write path (.text t) = .ok later) : later.WellNamed where
  here := (sameBut_of_write hwrite).here ▸ h.here
  tree := by
    intro place hplace
    by_cases hwritten : place = path.resolve fs.here
    · rw [hwritten]
      exact Path.isFileName_of_mem_walk List.prefix_rfl h.here
    · rw [(sameBut_of_write hwrite).same place hwritten] at hplace
      exact h.tree place hplace

end Files

/-- **Generating with options** is generating with the settings of the configuration in which the
options are entered, or of the default configuration if there is none; and so is generating without
options where this is the configuration. Where the configuration file is edited to hold it, the
same is printed and the same is left but for this file. So it is where a configuration file is
created, if it is no candidate and neither command fails. -/
theorem Command.runGenerate_edited (root : Path) (config : Option Config) (overrides : Overrides) :
    let edited := (config.getD {}).edited overrides
    let given := Settings.ofConfig root edited
    override root config overrides = given ∧
    ∀ fs event, Config.load fs root = .ok (config, event) → ∀ verbose,
      runGenerate fs root verbose overrides = generateWith given fs root verbose ∧
      (∀ other found, Config.load other root = .ok (some edited, found) →
        runGenerate other root verbose {} = generateWith given other root verbose) ∧
      (∀ path t later, Config.file? fs root = some path → Config.parse t = .ok edited →
        fs.write path (.text t) = .ok later →
        (runGenerate fs root verbose overrides).Alike (· = path.resolve fs.here)
          (runGenerate later root verbose {})) ∧
      ∀ path t later found, fs.WellNamed → fs.write path (.text t) = .ok later →
        Config.load later root = .ok (some edited, found) →
        ¬ given.sources.resolve fs.here <+: path.resolve fs.here →
        (runGenerate fs root verbose overrides).exitCode ≠ 2 →
        (runGenerate later root verbose {}).exitCode ≠ 2 →
        (runGenerate fs root verbose overrides).Alike (· = path.resolve fs.here)
          (runGenerate later root verbose {}) := by
  intro edited given
  refine ⟨override_eq root config overrides, fun fs event hload verbose => ?_⟩
  have hgiven : runGenerate fs root verbose overrides = generateWith given fs root verbose :=
    runGenerate_of_settings (settings_of_load hload overrides) verbose
  have hedited : ∀ other found, Config.load other root = .ok (some edited, found) →
      runGenerate other root verbose {} = generateWith given other root verbose := by
    intro other found hother
    have hsettings := settings_of_load hother {}
    rw [Option.getD_some, Config.edited_empty] at hsettings
    exact runGenerate_of_settings hsettings verbose
  refine ⟨hgiven, hedited, ?_, ?_⟩
  · intro path t later hfile hparse hwrite
    rw [hgiven, hedited later _ (Config.load_of_write hfile hparse hwrite)]
    exact generateWith_alike
      (FileSystem.sameButContents_of_write hwrite (List.find?_some hfile))
      (fun here guide hguide => Config.resolve_ne_of_file? hfile hguide here fs.here) _ root verbose
  · intro path t later found hnamed hwrite hlater hsources h hother
    rw [hgiven] at h ⊢
    rw [hedited later found hlater] at hother ⊢
    refine generateWith_same (FileSystem.sameBut_of_write hwrite) hnamed (hnamed.write hwrite)
      ?_ h hother
    rintro place hbelow rfl
    exact hsources hbelow

/-- A guide in a project, beside the given configuration file, if there is one. -/
def projectWith (configuration : Option Text) : FileSystem :=
  .ofTree [["p".toList], ["p".toList, "g".toList]]
    ((["p".toList, "g".toList], "x.kt".toList, guideAt "u/p".toList "Application".toList) ::
      (configuration.map fun t => (["p".toList], "dokgen.toml".toList, t)).toList)

/-- A configuration with another root of the guides than the project has. -/
def configurationElsewhere : Text :=
  "[sources]\nroot = \"old\"\n".toList

/-- The same configuration, in which options have been entered. -/
def configurationEntered : Text :=
  "[sources]\nroot = \"g\"\n[output]\ndocs = \"d\"\n[web]\nroot_url = \"u\"\n".toList

/-- The options that have been entered in it. -/
def overridesEntered : Overrides where
  sources := some ⟨"g".toList⟩
  pages := some ⟨"d".toList⟩
  rootUrl := some "u".toList

/-- The guide is generated with the options, and just so if they have been entered in the
configuration file, or in a new one. -/
theorem Command.runGenerate_edited_of_projectWith :
    let plain := runGenerate (projectWith (some configurationEntered)) ⟨"p".toList⟩ true {}
    plain.exitCode = 0 ∧
    (runGenerate (projectWith (some configurationElsewhere)) ⟨"p".toList⟩ true
      overridesEntered).Alike (· = ["p".toList, "dokgen.toml".toList]) plain ∧
    (runGenerate (projectWith none) ⟨"p".toList⟩ true overridesEntered).Alike
      (· = ["p".toList, "dokgen.toml".toList]) plain := by
  have hload : Config.load (projectWith (some configurationElsewhere)) ⟨"p".toList⟩ =
      .ok (some { sources := ⟨⟨"old".toList⟩, []⟩ },
        .configLoaded ⟨"p/dokgen.toml".toList⟩) := by
    decide +kernel
  have hnone : Config.load (projectWith none) ⟨"p".toList⟩ =
      .ok (none, .configMissing ⟨"p".toList⟩) := by
    decide +kernel
  have hplace : ∀ configuration, (⟨"p/dokgen.toml".toList⟩ : Path).resolve
      (projectWith configuration).here = ["p".toList, "dokgen.toml".toList] := by
    intro configuration
    have hhere : (projectWith configuration).here = [] := rfl
    rw [hhere]
    decide +kernel
  have hexit : (runGenerate (projectWith (some configurationEntered)) ⟨"p".toList⟩ true
      {}).exitCode = 0 := by
    decide +kernel
  obtain ⟨-, hoptions⟩ := runGenerate_edited ⟨"p".toList⟩ (some _) overridesEntered
  obtain ⟨-, -, hedited, -⟩ := hoptions _ _ hload true
  obtain ⟨-, hdefaults⟩ := runGenerate_edited ⟨"p".toList⟩ none overridesEntered
  obtain ⟨-, -, -, hcreated⟩ := hdefaults _ _ hnone true
  refine ⟨hexit, ?_, ?_⟩
  · rw [← hplace (some configurationElsewhere)]
    exact hedited ⟨"p/dokgen.toml".toList⟩ configurationEntered
      (projectWith (some configurationEntered)) (by decide +kernel) (by decide +kernel)
      (by decide +kernel)
  · rw [← hplace none]
    refine hcreated ⟨"p/dokgen.toml".toList⟩ configurationEntered
      (projectWith (some configurationEntered)) (.configLoaded ⟨"p/dokgen.toml".toList⟩)
      (by decide +kernel) (by decide +kernel) (by decide +kernel) (by decide +kernel)
      (by decide +kernel) ?_
    rw [hexit]
    decide

end Guidebook
