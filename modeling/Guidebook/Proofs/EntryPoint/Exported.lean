import Guidebook.Proofs.Batch.Sources
import Guidebook.Proofs.ItemByItem

/-!
# The Classes of Exported Programs

An exported program lies in the directory of its guide, seen from the root for exported programs
instead of that of the guides. So the class that is named after the directory of the program is the
one that is named after the package that the program declares, that of the directory of the guide.
Exported programs of different guides can lie at one place; but then the guides are in the same
directory, and it makes no difference which has been written last.

The package is read from the text of the program, behind the comment with its link. The link holds
the name of the guide, and a guide whose name holds a line feed can have a program that is taken to
declare what stands on the second line.

## Main results

* `PublicLink.isLine_address`: links are one line each.
* `EntryPoint.ofLocation_eq`: the class of a program by its directory.
* `Settled.names_of_exported`: where an exported program lies tells the directory of its guide.
* `classes_exported`: **the classes of exported programs**, by their directories and by their
  content.
-/

namespace Guidebook

/-! ### Names that lead to a file -/

namespace Path

/-- The names among components. -/
def namesOf (components : List Component) : List Text :=
  components.filterMap fun
    | .name n => some n
    | _ => none

/-- The names among components are those of both parts. -/
theorem namesOf_append (first second : List Component) :
    namesOf (first ++ second) = namesOf first ++ namesOf second :=
  List.filterMap_append

/-- The names among names are all of them. -/
theorem namesOf_map_name (names : List Text) : namesOf (names.map .name) = names := by
  induction names with
  | nil => rfl
  | cons name names ih => exact congrArg (name :: ·) ih

/-- The names of a path are those among its moves. -/
theorem names_eq (p : Path) : p.names = namesOf p.moves := by
  have hanchor : namesOf p.split.1.components = [] := by cases p.split.1 <;> rfl
  have hnames : p.names = namesOf p.components := rfl
  rw [hnames, components_eq, namesOf_append, hanchor]
  rfl

/-- The names that lead to a directory and to a file in it. -/
theorem names_directoryOf {p : Path} {name : Text} (h : p.fileName? = some name) :
    (GuideFile.directoryOf p).names ++ [name] = p.names := by
  have hwhole := congrArg namesOf (GuideFile.components_directoryOf_append h)
  rwa [namesOf_append] at hwhole

/-- **A file in a directory below a root**, seen from the root, lies under the names of the
directory. -/
theorem exists_names_relativeTo? (root : Path) {directory : Path} {name : Text}
    (hdirectory : directory.isAbsolute = false) (hname : IsFileName name) :
    ∃ relative, ((root.join directory).join ⟨name⟩).relativeTo? root = some relative ∧
      (GuideFile.directoryOf relative).names = directory.names := by
  obtain ⟨relative, start, hrelative, hstart, hcomponents⟩ :=
    exists_components_relativeTo?_file root hdirectory hname
  refine ⟨relative, hrelative, ?_⟩
  have hlast : relative.fileName? = some name := by
    rw [fileName?, hcomponents, List.getLast?_concat]
  have hwhole : relative.names = directory.names ++ [name] := by
    rw [names_eq directory]
    refine (congrArg namesOf hcomponents).trans ?_
    rw [namesOf_append]
    rcases hstart with rfl | rfl <;> rfl
  exact List.append_cancel_right ((names_directoryOf hlast).trans hwhole)

end Path

/-! ### Links -/

namespace PublicLink

/-- The address of the directory of a guide is one line, if the public address is, and the names are
that lead to the guide. -/
theorem not_mem_directory {base : Text} {file : GuideFile} (hbase : '\n' ∉ base)
    (hdirectories : ∀ name ∈ file.relativeDirectory.names, '\n' ∉ name) :
    '\n' ∉ (ofGuide base file).directory := by
  have htop : '\n' ∉ Text.dropEndWhile (· = '/') base ++ '/' :: Namespace.root := by
    rw [List.mem_append, not_or]
    refine ⟨fun hmem => hbase ?_, by decide⟩
    exact List.mem_reverse.1 ((List.dropWhile_suffix _).mem (List.mem_reverse.1 hmem))
  simp only [ofGuide]
  split
  · exact htop
  · rw [List.mem_append, List.mem_cons, not_or, not_or]
    refine ⟨htop, by decide, fun hinner => ?_⟩
    rcases Path.mem_slashed hinner with habsurd | habsurd | ⟨name, hname, hmem⟩
    · exact absurd habsurd (by decide)
    · exact absurd habsurd (by decide)
    · exact hdirectories name hname hmem

/-- **Links are one line each**, if the name of the guide is one, too. -/
theorem isLine_address {base : Text} {file : GuideFile} (hbase : '\n' ∉ base)
    (hdirectories : ∀ name ∈ file.relativeDirectory.names, '\n' ∉ name) (hname : '\n' ∉ file.name)
    (hextension : file.extension = "kt".toList) (index : Nat) :
    Text.IsLine ((ofGuide base file).address index) ∧ (ofGuide base file).address index ≠ [] := by
  have haddress : (ofGuide base file).address index =
      (ofGuide base file).directory ++ '/' :: (file.name ++ paddedIndex index ++ ".kt".toList) := by
    rw [address, ofGuide, hextension]
    rfl
  have hindex : '\n' ∉ paddedIndex index := by
    intro hmem
    exact absurd (isDigit_of_mem_paddedIndex hmem) (by decide)
  have hend : ".kt".toList ≠ [] := by decide
  rw [haddress]
  refine ⟨⟨?_, ?_⟩, by simp⟩
  · simp only [List.mem_append, List.mem_cons, not_or]
    exact ⟨not_mem_directory hbase hdirectories, by decide, ⟨hname, hindex⟩, by decide⟩
  · rw [List.getLast?_append_of_ne_nil _ (List.cons_ne_nil _ _), ← List.cons_append,
      List.getLast?_append_of_ne_nil _ hend]
    decide

end PublicLink

/-! ### Classes -/

namespace EntryPoint

/-- The class of a program that is named after the directories in which it lies below the root. -/
def ofDirectories (root path : Path) : Text :=
  ofNames (((path.relativeTo? root).map fun relative =>
    (GuideFile.directoryOf relative).names).getD []) (path.stem?.getD [])

/-- **The class of a program by its directory.** -/
theorem ofLocation_eq {root path relative : Path} (h : path.relativeTo? root = some relative) :
    ofLocation root path = .ok (ofDirectories root path) := by
  have hfile := fileBelow_eq_ok_iff.2 (Option.map_eq_some_iff.2 ⟨relative, h, rfl⟩)
  rw [ofLocation, hfile, ofDirectories, h]
  exact congrArg Except.ok (className_ofDirectory _ _)

end EntryPoint

section Exported

variable {settings : Settings} {fs later : FileSystem} {taken : List (Path × Outcome)}
  {path file : Path}

namespace Settled

variable {publisher : Publisher} (h : Settled publisher settings fs path)
  (g : Generation publisher settings fs path)

include h in
/-- An exported program is a numbered program below the root for them. -/
theorem programBelow_exported (hfile : file ∈ g.plan.outputs.exported) :
    ProgramBelow settings.exported file := by
  rw [g.exported_eq, g.extension_eq] at hfile
  obtain ⟨index, rfl⟩ := exists_index_of_mem_programPaths hfile
  exact ⟨_, _, index, h.isAbsolute_within g .exported, g.not_mem_name, rfl⟩

include h in
/-- **Where an exported program lies** tells the directory of its guide. -/
theorem names_of_exported (hfile : file ∈ g.plan.outputs.exported) (here : Location) :
    file.resolve here =
        settings.exported.resolve here ++ g.file.relativeDirectory.names ++
          [file.fileName?.getD []] ∧
      ∃ relative, file.relativeTo? settings.exported = some relative ∧
        (GuideFile.directoryOf relative).names = g.file.relativeDirectory.names := by
  rw [g.exported_eq] at hfile
  obtain ⟨index, rfl⟩ := exists_index_of_mem_programPaths hfile
  have hname := isFileName_program g.not_mem_name g.not_mem_extension index
  have hdirectory := h.isAbsolute_within g .exported
  refine ⟨?_, Path.exists_names_relativeTo? settings.exported hdirectory hname⟩
  obtain ⟨names, hnames, rfl, -⟩ := h.below
  have hmoves := (GuideFile.moves_relativeDirectory hnames g.found).1
  rw [Path.resolve_file _ hname, Path.fileName?_file _ hname, Generation.within,
    GuideFile.resolve_join_relativeDirectory hnames g.found, Path.names_eq, hmoves,
    Path.namesOf_map_name]
  rfl

end Settled

/-- Exported programs at one place are those of guides in the same directory. -/
theorem names_eq_of_exported {publisher : Publisher} {other : Path} {path there : Path}
    (h : Settled publisher settings fs path) (g : Generation publisher settings fs path)
    (hfile : file ∈ g.plan.outputs.exported) (hthere : Settled publisher settings fs there)
    (g' : Generation publisher settings fs there) (hother : other ∈ g'.plan.outputs.exported)
    {here : Location} (heq : other.resolve here = file.resolve here) :
    g'.file.relativeDirectory.names = g.file.relativeDirectory.names := by
  rw [(h.names_of_exported g hfile here).1, (hthere.names_of_exported g' hother here).1] at heq
  exact List.append_cancel_left (List.append_inj_left' heq rfl)

/-- The class of an exported program by its content is that by its directory. -/
theorem Took.ofContent_exported (h : Took Guide.publish settings fs taken later)
    (hapart : settings.Apart fs.here)
    (hsettled : ∀ c ∈ taken, Settled Guide.publish settings fs c.1)
    (hbase : ∀ base ∈ settings.rootUrl, '\n' ∉ base)
    (hdirectories : ∀ c ∈ taken, ∀ name ∈ settings.directoryNames c.1, '\n' ∉ name)
    (hguides : settings.rootUrl.isSome → ∀ c ∈ taken, '\n' ∉ c.1.stem?.getD [])
    (hfile : file ∈ (Report.ofTaken settings taken).exported) :
    ProgramBelow settings.exported file ∧
      (∃ relative, file.relativeTo? settings.exported = some relative) ∧
      EntryPoint.ofContent later settings.exported file =
        .ok (EntryPoint.ofDirectories settings.exported file) := by
  have hlisted := hfile
  rw [(Report.ofTaken_lists settings taken).2.2.1] at hlisted
  obtain ⟨c, hc, hmem⟩ := List.mem_flatMap.1 hlisted
  obtain ⟨g, hmem⟩ := h.exists_generation_of_exported hapart hsettled hc hmem
  have hprogram := (hsettled c hc).programBelow_exported g hmem
  obtain ⟨-, relative, hrelative, hnames⟩ := (hsettled c hc).names_of_exported g hmem fs.here
  refine ⟨hprogram, ⟨relative, hrelative⟩, ?_⟩
  -- Whoever has written it last, the guide lies in the directory of this one.
  obtain ⟨d, hlast, ⟨written⟩⟩ := h.exists_program (.inr hfile)
  have hd := hlast.mem
  rcases written.kind with ⟨⟨p, hp, hplace⟩, -⟩ | ⟨⟨p, hp, hplace⟩, index, hlink⟩
  · obtain ⟨g', hp⟩ := h.exists_generation_of_runnable hapart hsettled hd hp
    exact absurd hplace (hapart.resolve_ne (by decide : OutputKind.runnable ≠ .exported)
      ((hsettled d hd).beneath_runnable g' hp) ((hsettled c hc).beneath_exported g hmem))
  · obtain ⟨g', hp⟩ := h.exists_generation_of_exported hapart hsettled hd hp
    have hsame := names_eq_of_exported (hsettled c hc) g hmem (hsettled d hd) g' hp hplace
    have hfound : written.file = g'.file := Option.some.inj (written.found.symm.trans g'.found)
    have hread := written.read
    have hlines := hdirectories d hd
    rw [settings.directoryNames_of_ofPath? g'.found] at hlines
    rw [hfound] at hread hlink
    have haddress : ∀ address ∈ written.link, Text.IsLine address ∧ address ≠ [] := by
      intro address haddress
      rw [hlink] at haddress
      obtain ⟨base, hsome, rfl⟩ := Option.map_eq_some_iff.1 haddress
      have hname : g'.file.name = d.1.stem?.getD [] := by
        obtain ⟨_, -, hfile⟩ := g'.file_eq
        rw [hfile]
      refine PublicLink.isLine_address (hbase base hsome) hlines ?_ g'.extension_eq index
      rw [hname]
      exact hguides (by rw [hsome]; rfl) d hd
    rw [hprogram.ofContent_eq hread hlines haddress, EntryPoint.ofDirectories, hrelative,
      GuideFile.toNamespace, EntryPoint.className_ofDirectory, hsame, ← hnames]
    rfl

/-- **The classes of exported programs.** Where the roots lie apart, no place has `..` in it, and
neither the public address nor the names that lead to guides hold a line feed, a run over the guides
that are found leaves exported programs that have the same classes by their directories and by their
content. If there is a public address, this takes that the names of the guides hold no line feed,
either. -/
theorem classes_exported {settings : Settings} {fs : FileSystem} {exclude : ExcludeSet}
    {found : Scan} {report : Report} (hnamed : fs.WellNamed)
    (hfound : Scan.below fs settings.sources exclude = .ok found) (hapart : settings.Apart fs.here)
    (hplaces : ∀ path ∈ found.files, ∀ place ∈ placeFor? Guide.publish settings fs path,
      .up ∉ place.moves)
    (hbase : ∀ base ∈ settings.rootUrl, '\n' ∉ base)
    (hdirectories : ∀ path ∈ found.files, ∀ name ∈ settings.directoryNames path, '\n' ∉ name)
    (hguides : settings.rootUrl.isSome → ∀ path ∈ found.files, '\n' ∉ path.stem?.getD [])
    (h : (generate Guide.publish settings fs found.files).result = .ok report) :
    EntryPoint.namesByLocation settings.exported report.exported =
        .ok (report.exported.map (EntryPoint.ofDirectories settings.exported)) ∧
      EntryPoint.namesByContent (generate Guide.publish settings fs found.files).fs
          settings.exported report.exported =
        .ok (report.exported.map (EntryPoint.ofDirectories settings.exported)) := by
  obtain ⟨taken, hpaths, htook, rfl⟩ := exists_took h
  have hmem : ∀ c ∈ taken, c.1 ∈ found.files := fun c hc => hpaths ▸ List.mem_map_of_mem hc
  have hsettled : ∀ c ∈ taken, Settled Guide.publish settings fs c.1 := fun c hc =>
    .of_below hnamed hfound (hmem c hc) fun place hplace =>
      GuideFile.staysBelow_directoryOf (hplaces c.1 (hmem c hc) place hplace)
  have hprograms : ∀ file ∈ (Report.ofTaken settings taken).exported, _ := fun file hfile =>
    htook.ofContent_exported hapart hsettled hbase (fun c hc => hdirectories c.1 (hmem c hc))
      (fun hsome c hc => hguides hsome c.1 (hmem c hc)) hfile
  rw [EntryPoint.namesByLocation, EntryPoint.namesByContent,
    filter_isProgram fun file hfile => (hprograms file hfile).1]
  refine ⟨mapM_ok fun file hfile => ?_, mapM_ok fun file hfile => (hprograms file hfile).2.2⟩
  obtain ⟨-, ⟨relative, hrelative⟩, -⟩ := hprograms file hfile
  exact EntryPoint.ofLocation_eq hrelative

end Exported

/-- The settings under which exported programs have links. -/
def Settings.linked : Settings :=
  { Settings.plain with rootUrl := some "http://h".toList }

/-- Two guides with exported programs, one of them in a directory with a quoted name. -/
def guidesWithExports : FileSystem :=
  .ofTree [["src".toList], ["src".toList, "a".toList], ["src".toList, "a".toList, "1 b".toList]]
    [(["src".toList, "a".toList], "x.kt".toList, guideAt "p".toList "Code".toList),
      (["src".toList, "a".toList, "1 b".toList], "y.kt".toList, guideAt "q".toList "Code".toList)]

/-- The classes of their exported programs, by location and by content. -/
theorem classes_of_guidesWithExports :
    EntryPoint.namesByLocation ⟨"out".toList⟩
        [⟨"out/a/1 b/y000.kt".toList⟩, ⟨"out/a/x000.kt".toList⟩] =
      .ok ["examples.a.1 b.y000Kt".toList, "examples.a.x000Kt".toList] ∧
    EntryPoint.namesByContent (generate Guide.publish .linked guidesWithExports
          [⟨"src/a/1 b/y.kt".toList⟩, ⟨"src/a/x.kt".toList⟩]).fs ⟨"out".toList⟩
        [⟨"out/a/1 b/y000.kt".toList⟩, ⟨"out/a/x000.kt".toList⟩] =
      .ok ["examples.a.1 b.y000Kt".toList, "examples.a.x000Kt".toList] := by
  have hclasses := @classes_exported .linked guidesWithExports []
    ⟨[⟨"src/a/1 b/y.kt".toList⟩, ⟨"src/a/x.kt".toList⟩], []⟩
    { Report.empty with
      pages := [⟨"pages/q.markdown".toList⟩, ⟨"pages/p.markdown".toList⟩]
      runnable := [⟨"run/Q000.kt".toList⟩, ⟨"run/P000.kt".toList⟩]
      exported := [⟨"out/a/1 b/y000.kt".toList⟩, ⟨"out/a/x000.kt".toList⟩] }
    (by decide +kernel) (by decide +kernel) (by decide +kernel) (by decide +kernel)
    (by decide +kernel) (by decide +kernel) (by decide +kernel) (by decide +kernel)
  have heq : [(⟨"out/a/1 b/y000.kt".toList⟩ : Path), ⟨"out/a/x000.kt".toList⟩].map
      (EntryPoint.ofDirectories Settings.linked.exported) =
      ["examples.a.1 b.y000Kt".toList, "examples.a.x000Kt".toList] := by
    decide +kernel
  rw [heq] at hclasses
  exact hclasses

/-- A guide whose name holds a line feed, behind which a package seems to be declared. -/
def guideOfTwoLines : FileSystem :=
  .ofTree [["src".toList]]
    [(["src".toList], "a\npackage q.kt".toList, guideAt "p".toList "Code".toList)]

/-- Where there is a public address, what stands in the link can be taken for the package. -/
theorem classes_of_guideOfTwoLines :
    Scan.below guideOfTwoLines Settings.linked.sources [] =
        .ok ⟨[⟨"src/a\npackage q.kt".toList⟩], []⟩ ∧
      Settings.linked.Apart guideOfTwoLines.here ∧
      placeFor? Guide.publish .linked guideOfTwoLines ⟨"src/a\npackage q.kt".toList⟩ =
        some ⟨"p".toList⟩ ∧
      Settings.linked.directoryNames ⟨"src/a\npackage q.kt".toList⟩ = [] ∧
      (generate Guide.publish .linked guideOfTwoLines
        [⟨"src/a\npackage q.kt".toList⟩]).result =
        .ok { Report.empty with
          pages := [⟨"pages/p.markdown".toList⟩]
          runnable := [⟨"run/P000.kt".toList⟩]
          exported := [⟨"out/a\npackage q000.kt".toList⟩] } ∧
      EntryPoint.namesByLocation Settings.linked.exported [⟨"out/a\npackage q000.kt".toList⟩] =
        .ok ["examples.a\npackage q000Kt".toList] ∧
      EntryPoint.namesByContent (generate Guide.publish .linked guideOfTwoLines
          [⟨"src/a\npackage q.kt".toList⟩]).fs Settings.linked.exported
          [⟨"out/a\npackage q000.kt".toList⟩] =
        .ok ["q000.kt.a\npackage q000Kt".toList] := by
  decide +kernel

end Guidebook
