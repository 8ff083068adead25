import Guidebook.Proofs.Batch.Chronicle
import Guidebook.Proofs.Batch.Links
import Guidebook.Proofs.Scan.Findings

/-!
# Where Files Are Written

Every file of a publication is written under the name of a file, in a directory that is read from
within the root for its kind. For exported programs, the directory is that in which the guide has
been found below its own root: names lead there, so they lie beneath their root whatever the guide
says. For the page and the runnable programs it is the directory part of the place that the
directive `URL` names, and this may hold `..`: they lie beneath their roots if it never climbs.

The page is named after the last segment of the place, if that is a name. After a place that ends
with `..`, nothing stands in front of its extension.

## Main results

* `Text.not_mem_capitalize`: names stay names in upper case.
* `Generation.exists_name_of_write`: the files of a publication lie in the directories for them.
* `exists_change_performAll`: what steps have written, as far as they go, they have announced.
* `Generation.exists_announced`: what has become of files, as far as it goes, has been announced.
* `Generation.beneath_within`: the files of a publication lie beneath their roots.
* `confined_processFile`: **files lie beneath their roots**, under a name.
-/

namespace Guidebook

/-! ### Names -/

namespace Text

/-- A number that stands for a character is the code point of it. -/
theorem eq_of_ofNat_eq {n : Nat} {d : Char} (hd : d ≠ '\x00') (h : Char.ofNat n = d) :
    n = d.toNat := by
  by_cases hvalid : n.isValidChar
  · rw [Char.ofNat, dif_pos hvalid] at h
    exact congrArg Char.toNat h
  · rw [Char.ofNat, dif_neg hvalid] at h
    exact absurd h.symm hd

/-- The upper case of no other character holds a sign that comes before the digits. -/
theorem not_mem_upperCase {c d : Char} (h : c ≠ d) (hd : d ≠ '\x00') (hsign : d.toNat < 0x30) :
    d ∉ upperCase c := by
  rw [upperCase]
  split
  · next points hpoints =>
    have hall : ∀ entry ∈ upperCaseExpansions, ∀ n ∈ entry.2, 0x30 ≤ n := by decide +kernel
    intro hmem
    obtain ⟨n, hn, heq⟩ := List.mem_map.1 hmem
    obtain ⟨before, after, htable, -⟩ := List.lookup_eq_some_iff.1 hpoints
    have hlarge := hall (c.toNat, points) (by rw [htable]; simp) n hn
    rw [eq_of_ofNat_eq hd heq] at hlarge
    omega
  · split
    · next point hpoint =>
      have hall : ∀ run ∈ upperCaseRuns, 0x30 ≤ run.image := by decide +kernel
      intro hmem
      have hsmall := eq_of_ofNat_eq hd (List.mem_singleton.1 hmem).symm
      obtain ⟨run, hrun, himage⟩ := List.exists_of_findSome?_eq_some hpoint
      rw [CaseRun.image?] at himage
      split at himage
      · have hlarge := hall run hrun
        have himage := Option.some.inj himage
        omega
      · cases himage
    · exact fun hmem => h (List.mem_singleton.1 hmem).symm

/-- In upper case, a name without slashes has none, either. -/
theorem not_mem_capitalize {name : Text} (h : '/' ∉ name) : '/' ∉ capitalize name := by
  cases name with
  | nil => exact h
  | cons c rest =>
      obtain ⟨hc, hrest⟩ := not_or.1 (List.mem_cons.not.1 h)
      rw [capitalize, List.mem_append, not_or]
      exact ⟨not_mem_upperCase (Ne.symm hc) (by decide) (by decide), hrest⟩

end Text

/-- The place that directives name is not absolute. -/
theorem isAbsolute_of_publishPlace? {directives : Directives} {place : Path}
    (h : publishPlace? directives = some place) : place.isAbsolute = false := by
  rw [publishPlace?] at h
  split at h
  · cases h
  · next url _ =>
    dsimp only at h
    split at h
    · cases h
    · obtain rfl := Option.some.inj h
      rw [Path.isAbsolute]
      refine decide_eq_false fun hroot => ?_
      rw [Path.split] at hroot
      split at hroot
      · next rest hslash =>
        have hhead := List.head?_dropWhile_not (fun c => decide (c = '/')) (Text.trim url)
        rw [show (Text.trim url).dropWhile (fun c => decide (c = '/')) = '/' :: rest from hslash]
          at hhead
        simp at hhead
      all_goals cases hroot

/-! ### Files and their directories -/

/-- The root for the files of a kind. -/
def Settings.root (settings : Settings) : OutputKind → Path
  | .page => settings.pages
  | .runnable => settings.runnable
  | .exported => settings.exported

/-- The path leads to a place beneath that of the root. -/
def Beneath (here : Location) (root path : Path) : Prop :=
  root.resolve here <+: path.resolve here ∧ path.resolve here ≠ root.resolve here

instance (here : Location) (root path : Path) : Decidable (Beneath here root path) :=
  inferInstanceAs (Decidable (_ ∧ _))

/-- The steps for programs of one kind write files of this kind, at the given paths. -/
theorem mem_programSteps {kind other : OutputKind} {directory path : Path} {paths : List Path}
    {programs : List Text} {content : Text}
    (h : Step.write kind path content ∈ programSteps other directory paths programs) :
    kind = other ∧ path ∈ paths := by
  rw [programSteps] at h
  split at h
  · cases h
  · have hother : Step.write kind path content ≠ .ensure directory := by
      intro habsurd
      cases habsurd
    obtain ⟨file, hfile, heq⟩ := List.mem_map.1 ((List.mem_cons.1 h).resolve_left hother)
    obtain ⟨rfl, rfl, rfl⟩ := Step.write.inj heq
    exact ⟨rfl, (List.of_mem_zip hfile).1⟩

/-- The path of a program is a numbered name in the directory. -/
theorem exists_index_of_mem_programPaths {directory path : Path} {name extension : Text}
    {programs : List Text} (h : path ∈ programPaths directory name extension programs) :
    ∃ index, path = directory.join ⟨programName name extension index⟩ := by
  rw [programPaths_eq] at h
  obtain ⟨index, -, rfl⟩ := List.mem_map.1 h
  exact ⟨index, rfl⟩

/-- A name with the extension of pages is the name of a file. -/
theorem isFileName_pageOf {name : Text} (h : '/' ∉ name) :
    Path.IsFileName (name ++ ".markdown".toList) := by
  refine Path.isFileName_of_length ?_ ?_
  · rw [List.mem_append, not_or]
    exact ⟨h, by decide⟩
  · rw [List.length_append]
    exact Nat.lt_of_lt_of_le (by decide) (Nat.le_add_left _ _)

namespace Generation

variable {publisher : Publisher} {settings : Settings} {fs : FileSystem} {path : Path}
  (g : Generation publisher settings fs path)

/-- The directory of the files of a kind, seen from the root for them. -/
def within : OutputKind → Path
  | .page => GuideFile.directoryOf g.place
  | .runnable => GuideFile.directoryOf g.place
  | .exported => g.file.relativeDirectory

/-- The name of the page, without its extension. -/
def pageName : Text :=
  g.place.fileName?.getD []

/-- The name of a page holds no slash. -/
theorem not_mem_pageName : '/' ∉ g.pageName := by
  rw [pageName]
  cases hname : g.place.fileName? with
  | none => simp
  | some name => exact Path.not_mem_of_fileName? hname

/-- The name of a page with its extension is one that a file can have. -/
theorem isFileName_page : Path.IsFileName (g.pageName ++ ".markdown".toList) :=
  isFileName_pageOf g.not_mem_pageName

/-- The page lies in the directory for it. -/
theorem page_eq : g.plan.outputs.page =
    (settings.pages.join (g.within .page)).join ⟨g.pageName ++ ".markdown".toList⟩ := rfl

/-- The paths of the runnable programs, in the directory that the place tells. -/
theorem runnable_eq : g.plan.outputs.runnable =
    programPaths (settings.runnable.join (g.within .runnable)) (Text.capitalize g.pageName)
      g.file.extension g.publication.runnable := rfl

/-- The paths of the exported programs, in the directory of the guide below its root. -/
theorem exported_eq : g.plan.outputs.exported =
    programPaths (settings.exported.join (g.within .exported)) g.file.name g.file.extension
      g.publication.exported := rfl

/-- **The files of a publication** lie in the directories for them, each under the name of a
file. -/
theorem exists_name_of_write {kind : OutputKind} {target : Path} {content : Text}
    (h : Step.write kind target content ∈ g.plan.steps) :
    ∃ name, Path.IsFileName name ∧
      target = ((settings.root kind).join (g.within kind)).join ⟨name⟩ ∧
      (kind = .page → name = g.pageName ++ ".markdown".toList) := by
  have hcases : Step.write kind target content ∈
      [.ensure (settings.pages.join (g.within .page)), .write .page g.plan.outputs.page
        ((FrontMatter.ofDirectives (settings.citedPath g.file) g.publication.directives).render ++
          g.publication.page)] ++
      programSteps .runnable (settings.runnable.join (g.within .runnable)) g.plan.outputs.runnable
        g.publication.runnable ++
      programSteps .exported (settings.exported.join (g.within .exported)) g.plan.outputs.exported
        g.publication.exported := h
  rw [List.mem_append, List.mem_append] at hcases
  rcases hcases with (hpage | hrunnable) | hexported
  · obtain ⟨rfl, rfl, -⟩ : kind = .page ∧ target = g.plan.outputs.page ∧ _ := by
      simpa using hpage
    exact ⟨_, g.isFileName_page, g.page_eq, fun _ => rfl⟩
  · obtain ⟨rfl, hmem⟩ := mem_programSteps hrunnable
    obtain ⟨index, rfl⟩ := exists_index_of_mem_programPaths (g.runnable_eq ▸ hmem)
    exact ⟨_, isFileName_program (Text.not_mem_capitalize g.not_mem_pageName) g.not_mem_extension
      index, rfl, fun habsurd => nomatch habsurd⟩
  · obtain ⟨rfl, hmem⟩ := mem_programSteps hexported
    obtain ⟨index, rfl⟩ := exists_index_of_mem_programPaths (g.exported_eq ▸ hmem)
    exact ⟨_, isFileName_program g.not_mem_name g.not_mem_extension index, rfl,
      fun habsurd => nomatch habsurd⟩

end Generation

/-! ### Beneath the roots -/

/-- A file in a directory that never climbs from a root lies beneath the root. -/
theorem beneath_file (here : Location) (root : Path) {within : Path} {name : Text}
    (hwithin : within.isAbsolute = false) (hstays : within.staysBelow = true)
    (hname : Path.IsFileName name) : Beneath here root ((root.join within).join ⟨name⟩) := by
  rw [Beneath, Path.resolve_file _ hname, Path.resolve_join root hwithin]
  have hbelow := Path.staysBelow_iff.1 hstays (root.resolve here)
  refine ⟨hbelow.trans (List.prefix_append _ _), fun heq => ?_⟩
  have hlength := congrArg List.length heq
  have hle := hbelow.length_le
  rw [List.length_append, List.length_singleton] at hlength
  omega

/-! ### As far as it goes -/

/-- No file is announced but those that the steps write. -/
theorem exists_write_of_mem_events {fs : FileSystem} {steps : List Step} {kind : OutputKind}
    {target : Path} (h : .writing kind target ∈ (performAll fs steps).events) :
    ∃ content, Step.write kind target content ∈ steps := by
  obtain ⟨done, failed, hprogress⟩ := exists_progress fs steps
  rw [hprogress.events, List.mem_append, List.mem_map, List.mem_filterMap] at h
  obtain ⟨step, hstep, hevent⟩ : ∃ step ∈ done ++ failed.toList,
      step.event = .writing kind target := by
    rcases h with ⟨step, hstep, hevent⟩ | ⟨step, hstep, hevent⟩
    · exact ⟨step, List.mem_append_left _ hstep, hevent⟩
    · exact ⟨step, List.mem_append_right _ hstep, Step.event_of_announcement? hevent⟩
  cases step with
  | ensure directory => cases hevent
  | write other path content =>
      obtain ⟨rfl, rfl⟩ := Event.writing.inj hevent
      exact ⟨content, hprogress.mem hstep⟩

/-- **What steps have written, as far as they go**, they have announced. -/
theorem exists_change_performAll (fs : FileSystem) (steps : List Step) :
    ∃ writes made, fs.Change writes made (performAll fs steps).fs ∧
      ∀ w ∈ writes, ∃ kind, .writing kind w.1 ∈ (performAll fs steps).events := by
  obtain ⟨done, failed, hprogress⟩ := exists_progress fs steps
  obtain ⟨made, hchange⟩ := hprogress.exists_change
  refine ⟨writesOf done, made, hchange, fun w hw => ?_⟩
  obtain ⟨step, hstep, hwrite⟩ := List.mem_filterMap.1 hw
  cases step with
  | ensure directory => cases hwrite
  | write kind path content =>
      obtain rfl := Option.some.inj hwrite
      rw [hprogress.events]
      exact ⟨kind, List.mem_append_left _ (List.mem_map.2 ⟨_, hstep, rfl⟩)⟩

/-! ### Guides that can be published -/

namespace Generation

variable {publisher : Publisher} {settings : Settings} {fs : FileSystem} {path : Path}
  (g : Generation publisher settings fs path)

include g in
/-- What differs behind a guide that can be published is a file that has been announced, however far
its steps have gone. -/
theorem exists_announced {location : Location} {content : Content}
    (hcontent : fs.tree.entryAt? location = some (.file content) ∨
      (processFile publisher settings fs path).fs.tree.entryAt? location = some (.file content))
    (hne : (processFile publisher settings fs path).fs.tree.entryAt? location ≠
      fs.tree.entryAt? location) :
    ∃ kind target, .writing kind target ∈ (processFile publisher settings fs path).events ∧
      target.resolve fs.here = location := by
  rw [processFile_eq_performAll g] at hcontent hne ⊢
  obtain ⟨writes, made, hchange, hannounced⟩ := exists_change_performAll fs g.plan.steps
  obtain ⟨w, hw, hlocation⟩ := hchange.exists_write hcontent hne
  obtain ⟨kind, hkind⟩ := hannounced w hw
  exact ⟨kind, w.1, hkind, hlocation⟩

/-- The files that are announced lie in the directories for them. -/
theorem exists_name_of_announced {kind : OutputKind} {target : Path}
    (h : .writing kind target ∈ (processFile publisher settings fs path).events) :
    ∃ name, Path.IsFileName name ∧
      target = ((settings.root kind).join (g.within kind)).join ⟨name⟩ ∧
      (kind = .page → name = g.pageName ++ ".markdown".toList) := by
  rw [processFile_eq_performAll g] at h
  obtain ⟨content, hwrite⟩ := exists_write_of_mem_events h
  exact g.exists_name_of_write hwrite

/-- The page is called as the place says. -/
theorem fileName?_announced_page {name : Text} (hname : g.place.fileName? = some name)
    {target : Path}
    (h : .writing .page target ∈ (processFile publisher settings fs path).events) :
    target.fileName? = some (name ++ ".markdown".toList) := by
  obtain ⟨_, hfile, rfl, hpage⟩ := g.exists_name_of_announced h
  have hsame : g.pageName = name := by
    rw [pageName, hname]
    rfl
  rw [Path.fileName?, Path.components_file _ hfile, List.getLast?_concat, hpage rfl, hsame]

section Descend

variable {names : List Text} (hnames : ∀ name ∈ names, Path.IsFileName name)
  (hpath : path = settings.sources.descend names) (kind : OutputKind)

include hnames hpath in
/-- Directories are read from within the roots for them. -/
theorem isAbsolute_within : (g.within kind).isAbsolute = false := by
  have hplace := GuideFile.isAbsolute_directoryOf (isAbsolute_of_publishPlace? g.placed)
  subst hpath
  cases kind with
  | page => exact hplace
  | runnable => exact hplace
  | exported => exact (GuideFile.moves_relativeDirectory hnames g.found).2

variable {kind}
  (hstays : kind = .exported ∨ (GuideFile.directoryOf g.place).staysBelow = true)

include hnames hpath hstays in
/-- The directories of the outputs never climb: those for exported programs whatever the place is,
the others if it does not. -/
theorem staysBelow_within : (g.within kind).staysBelow = true := by
  subst hpath
  cases kind with
  | page => exact hstays.resolve_left (by decide)
  | runnable => exact hstays.resolve_left (by decide)
  | exported => exact GuideFile.staysBelow_relativeDirectory hnames g.found

include hnames hpath hstays in
/-- Files in them lie beneath the roots. -/
theorem beneath_within (here : Location) {name : Text} (hname : Path.IsFileName name) :
    Beneath here (settings.root kind)
      (((settings.root kind).join (g.within kind)).join ⟨name⟩) :=
  beneath_file here _ (g.isAbsolute_within hnames hpath kind)
    (g.staysBelow_within hnames hpath hstays) hname

end Descend

end Generation

/-! ### Guides that are found -/

/-- **Files lie beneath their roots.** A guide that has been found below the root of the guides, and
that the publisher accepts, either names no place, and nothing is written. Or all files that are
written, however far that goes, are announced, and they lie beneath the roots for them: the exported
programs always, and the page and the runnable programs if the directory part of the place never
climbs. If the place ends with a name, the page is called that name and `.markdown`. -/
theorem confined_processFile {publisher : Publisher} {settings : Settings} {fs : FileSystem}
    {exclude : ExcludeSet} {found : Scan} {path : Path} {file : GuideFile} {content : Text}
    {publication : Publication} (hnamed : fs.WellNamed)
    (hfound : Scan.below fs settings.sources exclude = .ok found) (hpath : path ∈ found.files)
    (hguide : path.extension? = some "kt".toList)
    (hfile : GuideFile.ofPath? settings.sources path = some file)
    (hread : fs.read path = .ok content)
    (haccepted : publisher.ofGuide settings file content = .ok publication) :
    publishPlace? publication.directives = none ∧
        (processFile publisher settings fs path).result =
          .error (.missingDirective "URL".toList file.relativePath.slashed) ∧
        (processFile publisher settings fs path).fs = fs ∧
        (processFile publisher settings fs path).events = [] ∨
      ∃ place, publishPlace? publication.directives = some place ∧
        (∀ location content,
          (fs.tree.entryAt? location = some (.file content) ∨
            (processFile publisher settings fs path).fs.tree.entryAt? location =
              some (.file content)) →
          (processFile publisher settings fs path).fs.tree.entryAt? location ≠
            fs.tree.entryAt? location →
          ∃ kind target, .writing kind target ∈ (processFile publisher settings fs path).events ∧
            target.resolve fs.here = location) ∧
        (∀ kind target, .writing kind target ∈ (processFile publisher settings fs path).events →
          kind = .exported ∨ (GuideFile.directoryOf place).staysBelow = true →
          Beneath fs.here (settings.root kind) target) ∧
        ∀ name, place.fileName? = some name → name ≠ [] ∧
          ∀ target, .writing .page target ∈ (processFile publisher settings fs path).events →
            target.fileName? = some (name ++ ".markdown".toList) := by
  cases hplace : publishPlace? publication.directives with
  | none =>
      left
      rw [processFile_of_unplaced hguide hfile hread haccepted hplace]
      exact ⟨rfl, rfl, rfl, rfl⟩
  | some place =>
      right
      let g : Generation publisher settings fs path :=
        ⟨file, content, publication, place, hguide, hfile, hread, haccepted, hplace⟩
      obtain ⟨names, -, hnames, hdescend, -⟩ := Scan.exists_descend_of_below hnamed hfound hpath
      refine ⟨place, rfl, fun location content => g.exists_announced,
        fun kind target hwriting hstays => ?_, fun name hname => ⟨?_, fun target hwriting => ?_⟩⟩
      · obtain ⟨name, hname, rfl, -⟩ := g.exists_name_of_announced hwriting
        exact g.beneath_within hnames hdescend hstays fs.here hname
      · exact (Path.isFileName_of_fileName? hname).ne_of_isSilent rfl
      · exact g.fileName?_announced_page hname hwriting

/-- The page of a guide that names a place in a directory is written beneath the root for pages. -/
theorem confined_processFile_in_directory :
    .writing .page ⟨"pages/p/q.markdown".toList⟩ ∈
        (processFile Guide.publish .plain (.ofGuides [("a.kt".toList, "p/q".toList)])
          ⟨"src/a.kt".toList⟩).events ∧
      Beneath [] Settings.plain.pages ⟨"pages/p/q.markdown".toList⟩ := by
  have hconfined := @confined_processFile Guide.publish .plain
    (.ofGuides [("a.kt".toList, "p/q".toList)]) [] ⟨[⟨"src/a.kt".toList⟩], []⟩
    ⟨"src/a.kt".toList⟩
    ⟨⟨"src/a.kt".toList⟩, ⟨"a.kt".toList⟩, ⟨[]⟩, "a".toList, "kt".toList⟩
    (guideAt "p/q".toList "Code".toList)
    ⟨⟨[("URL".toList, "p/q".toList)], List.pairwise_singleton _ _⟩,
      "```kotlin\nf()\n```\n".toList, [programOfGuide], [programOfGuide]⟩
    (by decide +kernel) (by decide +kernel) (by decide +kernel) (by decide +kernel)
    (by decide +kernel) (by decide +kernel) (by decide +kernel)
  rcases hconfined with ⟨hnowhere, -⟩ | ⟨place, hplace, -, hbeneath, -⟩
  · exact absurd hnowhere (by decide +kernel)
  · have hnamed : publishPlace? ⟨[("URL".toList, "p/q".toList)], List.pairwise_singleton _ _⟩ =
        some ⟨"p/q".toList⟩ := by
      decide +kernel
    obtain rfl := Option.some.inj (hnamed.symm.trans hplace)
    have hwriting : .writing .page ⟨"pages/p/q.markdown".toList⟩ ∈
        (processFile Guide.publish .plain (.ofGuides [("a.kt".toList, "p/q".toList)])
          ⟨"src/a.kt".toList⟩).events := by
      decide +kernel
    exact ⟨hwriting, hbeneath .page _ hwriting (.inr (by decide +kernel))⟩

/-- A place that begins with `..` leads away from the root for pages, and behind one that ends with
`..`, the page has no name but its extension. -/
theorem processFile_not_confined :
    (.writing .page ⟨"pages/../up/x.markdown".toList⟩ ∈
        (processFile Guide.publish .plain (.ofGuides [("a.kt".toList, "../up/x".toList)])
          ⟨"src/a.kt".toList⟩).events ∧
      ¬ Beneath [] Settings.plain.pages ⟨"pages/../up/x.markdown".toList⟩) ∧
    .writing .page ⟨"pages/p/.markdown".toList⟩ ∈
      (processFile Guide.publish .plain (.ofGuides [("a.kt".toList, "p/..".toList)])
        ⟨"src/a.kt".toList⟩).events := by
  decide +kernel

end Guidebook
