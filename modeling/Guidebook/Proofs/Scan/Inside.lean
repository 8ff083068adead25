import Guidebook.Command.Run
import Guidebook.Proofs.Batch.Decision
import Guidebook.Proofs.Scan.Exactness

/-!
# What a Scan Finds Lies Inside

However the root of a scan is written, each file that is found lies inside it: seen from the root,
the file has a path of ordinary names, none of which begins with a dot. So a run over what a scan
has found never stops at a source outside its root, neither does the listing of the classes of
programs, and the exported programs of a guide go to a directory that is the one for them or lies
below it.

Runs know a file outside its root as a failure of its own. Neither configurations nor patterns fail
in this way; so no command does.

## Main results

* `Scan.exists_liesInside`: where a file that is found lies, seen from the root.
* `LiesInside.components_exported`: exported programs **do not leave their directory**.
* `result_generate_ne_outside`: a run over files inside its root never stops at one outside.
* `Scan.finds_inside`: **a file that is found is never outside its root**, for scans, runs and
  commands.
-/

namespace Guidebook

/-! ### Inside a root -/

/-- Seen from the root, a path is that of a guide under the given names, all of which are ordinary
and none of which begins with a dot. -/
structure LiesInside (root path : Path) (file : GuideFile) (names : List Text) : Prop where
  seen : GuideFile.ofPath? root path = some file
  down : Scan.LeadsDown names
  visible : ∀ name ∈ names, name.head? ≠ some '.'
  relativePath : file.relativePath = ⟨Text.join ['/'] names⟩

namespace LiesInside

variable {root path : Path} {file : GuideFile} {names : List Text}
  (h : LiesInside root path file names)

include h in
/-- The components of the relative path are the names. -/
theorem components_relativePath : file.relativePath.components = names.map .name := by
  rw [h.relativePath, Path.components_names h.down.2]

include h in
/-- The relative directory is what the names but the last lead to. -/
theorem relativeDirectory : file.relativeDirectory = ⟨Text.join ['/'] names.dropLast⟩ := by
  obtain ⟨relative, -, rfl⟩ := Option.map_eq_some_iff.1 h.seen
  obtain ⟨front, name, rfl⟩ := (List.eq_nil_or_concat' names).resolve_left h.down.1
  have hrelative : relative = ⟨Text.join ['/'] (front ++ [name])⟩ := h.relativePath
  rw [hrelative, List.dropLast_concat]
  exact GuideFile.directoryOf_names h.down.2

include h in
/-- **Exported programs** go to their directory, or to one under names below it. -/
theorem components_exported (exported : Path) :
    (exported.join file.relativeDirectory).components =
      exported.components ++ names.dropLast.map .name := by
  have hfront : ∀ name ∈ names.dropLast, Path.IsFileName name := fun name hname =>
    h.down.2 name (List.dropLast_subset _ hname)
  have hdirectory : file.relativeDirectory.components = names.dropLast.map .name := by
    rw [h.relativeDirectory, Path.components_names hfront]
  have hroot : .root ∉ file.relativeDirectory.components := by
    rw [hdirectory, List.mem_map]
    simp
  have hhere : .here ∉ file.relativeDirectory.components := by
    rw [hdirectory, List.mem_map]
    simp
  rw [Path.components_join_of_not_mem exported hroot hhere, hdirectory]

include h in
/-- The directory of the exported programs is the one for them or lies below it, where the paths
lead too. -/
theorem resolve_exported (exported : Path) (here : Location) :
    (exported.join file.relativeDirectory).resolve here =
      exported.resolve here ++ names.dropLast := by
  obtain ⟨hmoves, habsolute⟩ := Path.moves_of_components
    (h.relativeDirectory ▸ Path.components_names fun name hname =>
      h.down.2 name (List.dropLast_subset _ hname))
  rw [Path.resolve_join exported habsolute, hmoves, Location.walk_names]

end LiesInside

namespace Scan

variable {fs : FileSystem} {root path : Path} {exclude : ExcludeSet}

/-- **Where a file that is found lies**, seen from the root. -/
theorem exists_liesInside (hnamed : fs.WellNamed)
    (hpath : path ∈ filesIn fs exclude root (depthBound fs) root) :
    ∃ file names, LiesInside root path file names := by
  have hroot := (FileSystem.isDirectory_iff.1 (isDirectory_of_mem_filesIn hpath)).2.1
  obtain ⟨names, hne, hnames, rfl, -, hkept⟩ := exists_kept_of_mem_filesIn hnamed hpath
  have hrelative := Path.relativeTo?_descend hnames hroot hne
  have hvisible := ((kept_iff [] hroot (by simp) hnames).1 hkept).1
  exact ⟨_, names, Option.map_eq_some_iff.2 ⟨_, hrelative, rfl⟩, ⟨hne, hnames⟩, hvisible, rfl⟩

end Scan

/-! ### Failures -/

/-- The failure is that of a source outside its root. -/
def Failure.IsOutside (failure : Failure) : Prop :=
  ∃ path root, failure = .sourceOutsideRoot path root

/-- The code says which failure it is. -/
theorem Failure.code_eq_iff {failure : Failure} :
    failure.code = "dokgen::source_outside_root".toList ↔ failure.IsOutside := by
  cases failure with
  | sourceOutsideRoot path root => exact ⟨fun _ => ⟨path, root, rfl⟩, fun _ => rfl⟩
  | io | unsupportedFormat | missingDirective | configSyntax | invalidPattern | deepPatterns =>
      exact iff_of_false (of_decide_eq_false rfl) nofun

section Failing

variable {failure : Failure}

/-- No pattern fails as a source outside its root does. -/
theorem ExcludeSet.not_isOutside_of_ofPatterns {patterns : List Text}
    (h : ofPatterns patterns = .error failure) : ¬ failure.IsOutside := by
  rintro ⟨path, root, rfl⟩
  rw [ofPatterns] at h
  split at h
  · next other hother =>
    obtain ⟨pattern, -, hpattern⟩ := exists_error_of_mapM (hother.trans h)
    rw [globOf] at hpattern
    split at hpattern <;> cases hpattern
  · split at h <;> cases h

/-- No configuration fails as a source outside its root does. -/
theorem Command.not_isOutside_of_settings {fs : FileSystem} {project : Path}
    {overrides : Overrides} (h : settings fs project overrides = .error failure) :
    ¬ failure.IsOutside := by
  rintro ⟨path, root, rfl⟩
  rw [settings, Config.load] at h
  split at h
  · cases h
  · split at h
    · cases h
    · rw [Config.parse] at h
      split at h <;> cases h

/-- A guide that is inside its root fails in other ways, if it does. -/
theorem not_isOutside_of_decided {publisher : Publisher} {settings : Settings}
    {fs later : FileSystem} {path : Path} {file : GuideFile}
    (hfile : GuideFile.ofPath? settings.sources path = some file)
    (h : Decided publisher settings fs path later (.error failure)) : ¬ failure.IsOutside := by
  rintro ⟨outsider, place, rfl⟩
  cases h with
  | outside isGuide outside =>
      rw [← GuideFile.ofPath?_eq_none_iff, hfile] at outside
      cases outside

variable {root : Path} {paths : List Path}
  (hinside : ∀ path ∈ paths, ∃ file, GuideFile.ofPath? root path = some file)

include hinside in
/-- **A run over files inside its root** never stops at one outside. -/
theorem result_generate_ne_outside {publisher : Publisher} {settings : Settings}
    {fs : FileSystem} (hsources : settings.sources = root)
    (h : (generate publisher settings fs paths).result = .error failure) :
    ¬ failure.IsOutside := by
  subst hsources
  obtain ⟨before, path, after, report, rfl, -, hfailed, -⟩ := exists_failed_candidate h
  obtain ⟨file, hfile⟩ := hinside path (by simp)
  have hdecided := decided_processFile publisher settings
    (generate publisher settings fs before).fs path
  rw [hfailed] at hdecided
  exact not_isOutside_of_decided hfile hdecided

include hinside in
/-- **The listing of classes** never stops at a file outside either. -/
theorem EntryPoint.namesByContent_ne_outside {fs : FileSystem}
    (h : namesByContent fs root paths = .error failure) : ¬ failure.IsOutside := by
  rintro ⟨outsider, place, rfl⟩
  obtain ⟨path, hpath, hfailed⟩ := exists_error_of_mapM h
  obtain ⟨file, hfile⟩ := hinside path (List.mem_of_mem_filter hpath)
  rw [ofContent, fileBelow_eq_ok_iff.2 hfile] at hfailed
  split at hfailed <;> cases hfailed

end Failing

/-! ### Commands -/

namespace Command

variable {fs : FileSystem} (hnamed : fs.WellNamed)

/-- A command reports the failure that it has stopped at, and no other. -/
theorem code_not_mem_failed (output : List Text) {failure : Failure} (h : ¬ failure.IsOutside) :
    "dokgen::source_outside_root".toList ∉ (failed fs output failure).diagnostics := by
  rw [failed, List.mem_singleton]
  exact fun heq => h (Failure.code_eq_iff.1 heq.symm)

include hnamed in
/-- All that is found by a scan is inside its root. -/
theorem exists_ofPath?_of_below {root : Path} {exclude : ExcludeSet} {found : Scan}
    (hfound : Scan.below fs root exclude = .ok found) :
    ∀ path ∈ found.files, ∃ file, GuideFile.ofPath? root path = some file := by
  intro path hpath
  obtain ⟨file, _, hinside⟩ :=
    Scan.exists_liesInside hnamed ((Scan.perm_files_below hfound).mem_iff.1 hpath)
  exact ⟨file, hinside.seen⟩

include hnamed in
/-- Generating never reports a source outside its root. -/
theorem code_not_mem_runGenerate (project : Path) (verbose : Bool) (overrides : Overrides) :
    "dokgen::source_outside_root".toList ∉
      (runGenerate fs project verbose overrides).diagnostics := by
  rw [runGenerate]
  split
  · next failure hfailure => exact code_not_mem_failed _ (not_isOutside_of_settings hfailure)
  next settings hsettings =>
  split
  · next failure hfailure =>
    exact code_not_mem_failed _ (ExcludeSet.not_isOutside_of_ofPatterns hfailure)
  next exclude hexclude =>
  split
  · next failure hfailure =>
    obtain ⟨events, hbelow⟩ := Scan.files_below fs settings.sources exclude
    rw [hbelow] at hfailure
    cases hfailure
  next found hfound =>
  simp only
  split
  · next failure hfailure =>
    exact code_not_mem_failed _
      (result_generate_ne_outside (exists_ofPath?_of_below hnamed hfound) rfl hfailure)
  · next report hreport =>
    -- Codes begin otherwise than warnings.
    intro hmem
    obtain ⟨skipped, -, heq⟩ := List.mem_map.1 hmem
    exact absurd (congrArg List.head? heq) (by simp)

include hnamed in
/-- Listing the classes of programs never reports a source outside its root. -/
theorem code_not_mem_runClassNames (project : Path) (directory : Option Path) (asJson : Bool) :
    "dokgen::source_outside_root".toList ∉
      (runClassNames fs project directory asJson).diagnostics := by
  unfold runClassNames
  simp only
  split
  · next failure hfailure =>
    refine code_not_mem_failed _ ?_
    cases directory with
    | some directory => cases hfailure
    | none =>
        cases hsettings : settings fs project {} with
        | ok settings => simp [hsettings, Except.map] at hfailure
        | error other =>
            simp only [hsettings, Except.map, Except.error.injEq] at hfailure
            exact hfailure ▸ not_isOutside_of_settings hsettings
  next directory hdirectory =>
  split
  · next failure hfailure =>
    obtain ⟨events, hbelow⟩ := Scan.files_below fs directory []
    rw [hbelow] at hfailure
    cases hfailure
  next found hfound =>
  split
  · next failure hfailure =>
    exact code_not_mem_failed _ (EntryPoint.namesByContent_ne_outside
      (exists_ofPath?_of_below hnamed hfound) hfailure)
  · exact List.not_mem_nil

end Command

/-! ### Scans -/

namespace Scan

variable {fs : FileSystem} {order : Path → List Text → List Text}

/-- **A file that is found is never outside its root**, however the root is written. Seen from
there, it has a path of ordinary names that can be seen, and its exported programs go to a directory
below the one for them, or to that itself. A run over what has been found never stops at a source
outside its root, whatever has become of the files until then; neither does the listing of classes,
nor any command that scans. -/
theorem finds_inside (hnamed : fs.WellNamed) (horder : IsListing order) (root : Path)
    (exclude : ExcludeSet) :
    (∃ found, listedBy order fs root exclude = .ok found ∧
      (∀ path ∈ found.files, ∃ file names, GuideFile.ofPath? root path = some file ∧
        names ≠ [] ∧ file.relativePath.components = names.map .name ∧
        (∀ name ∈ names, Path.IsFileName name ∧ name.head? ≠ some '.') ∧
        ∀ exported : Path, (exported.join file.relativeDirectory).components =
            exported.components ++ names.dropLast.map .name ∧
          ∀ here, (exported.join file.relativeDirectory).resolve here =
            exported.resolve here ++ names.dropLast) ∧
      (∀ publisher settings later, settings.sources = root → ∀ outsider place,
        (generate publisher settings later found.files).result ≠
          .error (.sourceOutsideRoot outsider place)) ∧
      ∀ later outsider place, EntryPoint.namesByContent later root found.files ≠
        .error (.sourceOutsideRoot outsider place)) ∧
    ∀ project,
      (∀ verbose overrides, "dokgen::source_outside_root".toList ∉
        (Command.runGenerate fs project verbose overrides).diagnostics) ∧
      ∀ directory asJson, "dokgen::source_outside_root".toList ∉
        (Command.runClassNames fs project directory asJson).diagnostics := by
  obtain ⟨events, hlisted⟩ := files_listedBy hnamed horder root exclude
  have hinside : ∀ path ∈ Path.sort (filesIn fs exclude root (depthBound fs) root),
      ∃ file names, LiesInside root path file names := fun path hpath =>
    exists_liesInside hnamed ((Path.perm_sort _).mem_iff.1 hpath)
  have hseen : ∀ path ∈ Path.sort (filesIn fs exclude root (depthBound fs) root),
      ∃ file, GuideFile.ofPath? root path = some file := by
    intro path hpath
    obtain ⟨file, _, h⟩ := hinside path hpath
    exact ⟨file, h.seen⟩
  refine ⟨⟨_, hlisted, fun path hpath => ?_,
    fun publisher settings later hsources outsider place h => ?_,
    fun later outsider place h => ?_⟩, fun project =>
    ⟨Command.code_not_mem_runGenerate hnamed project,
      Command.code_not_mem_runClassNames hnamed project⟩⟩
  · obtain ⟨file, names, h⟩ := hinside path hpath
    exact ⟨file, names, h.seen, h.down.1, h.components_relativePath,
      fun name hname => ⟨h.down.2 name hname, h.visible name hname⟩,
      fun exported => ⟨h.components_exported exported, h.resolve_exported exported⟩⟩
  · exact result_generate_ne_outside hseen hsources h ⟨outsider, place, rfl⟩
  · exact EntryPoint.namesByContent_ne_outside hseen h ⟨outsider, place, rfl⟩

/-- A root written with steps up and down, silent segments and slashes too many is still the root of
what is found; and the empty guides are only skipped. -/
theorem finds_inside_of_guidesAndDrafts :
    ∃ found, listedBy (fun _ names => names.reverse) guidesAndDrafts
        ⟨"./src//drafts/../../src/.//".toList⟩ [] = .ok found ∧
      (∃ file names, GuideFile.ofPath? ⟨"./src//drafts/../../src/.//".toList⟩
          ⟨"./src//drafts/../../src/.//a/x.kt".toList⟩ = some file ∧ names ≠ [] ∧
        file.relativePath.components = names.map .name ∧
        (Path.join ⟨"out".toList⟩ file.relativeDirectory).components =
          .name "out".toList :: names.dropLast.map .name) ∧
      "dokgen::source_outside_root".toList ∉
        (Command.runGenerate guidesAndDrafts ⟨[]⟩ false
          { sources := some ⟨"./src//drafts/../../src/.//".toList⟩ }).diagnostics := by
  obtain ⟨⟨found, hfound, hinside, -, -⟩, hcommands⟩ := @finds_inside guidesAndDrafts
    (fun _ names => names.reverse) (by decide +kernel) (fun _ names => names.reverse_perm)
    ⟨"./src//drafts/../../src/.//".toList⟩ []
  have hlisted : listedBy (fun _ names => names.reverse) guidesAndDrafts
      ⟨"./src//drafts/../../src/.//".toList⟩ [] =
      .ok ⟨[⟨"./src//drafts/../../src/.//a/x.kt".toList⟩,
        ⟨"./src//drafts/../../src/.//a/x.md".toList⟩, ⟨"./src//drafts/../../src/.//b.kt".toList⟩,
        ⟨"./src//drafts/../../src/.//drafts/z.kt".toList⟩], []⟩ := by decide +kernel
  obtain rfl := Except.ok.inj (hfound.symm.trans hlisted)
  obtain ⟨file, names, hseen, hne, hcomponents, -, hexported⟩ := hinside _ List.mem_cons_self
  exact ⟨_, hfound, ⟨file, names, hseen, hne, hcomponents, (hexported ⟨"out".toList⟩).1⟩,
    (hcommands ⟨[]⟩).1 _ _⟩

end Scan

end Guidebook
