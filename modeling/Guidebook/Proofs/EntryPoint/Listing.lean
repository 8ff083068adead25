import Guidebook.Proofs.Batch.Sources
import Guidebook.Proofs.Scan.Completeness

/-!
# Listing the Programs of a Run

Who starts the programs of a run scans the directory for them, and reads the class of each off its
content. If there was nothing in that directory before the run, the scan finds what the run has
written there, and nothing else; what it finds is in order, without repetition, and the package of
each program is that of the guide that has written it last.

This takes that the programs can be seen: the places of the guides are made of names that do not
begin with a dot. In upper case, a name does not begin with a dot, either.

## Main results

* `Generation.exists_names_runnable`: the names that lead to a runnable program.
* `Took.isFile_iff`: **what a run leaves beneath the root for runnable programs** is what it
  reports.
* `classes_listed`: **what a scan of that root lists**, and the classes.
-/

namespace Guidebook

/-! ### Names that can be seen -/

namespace Text

/-- In upper case, a character is at least one. -/
theorem upperCase_ne_nil (c : Char) : upperCase c ≠ [] := by
  rw [upperCase]
  split
  · next points hpoints =>
    have hall : ∀ entry ∈ upperCaseExpansions, entry.2 ≠ [] := by decide +kernel
    obtain ⟨before, after, htable, -⟩ := List.lookup_eq_some_iff.1 hpoints
    rw [Ne, List.map_eq_nil_iff]
    exact hall (c.toNat, points) (by rw [htable]; simp)
  · split
    · exact List.cons_ne_nil _ _
    · exact List.cons_ne_nil _ _

/-- In upper case, a name begins with no dot if it does not begin with one as it is. -/
theorem head?_capitalize_append {name : Text} (hne : name ≠ []) (h : name.head? ≠ some '.')
    (rest : Text) : (capitalize name ++ rest).head? ≠ some '.' := by
  obtain ⟨c, name, rfl⟩ := List.exists_cons_of_ne_nil hne
  have hc : c ≠ '.' := fun heq => h (congrArg some heq)
  obtain ⟨first, more, hupper⟩ := List.exists_cons_of_ne_nil (upperCase_ne_nil c)
  rw [capitalize, hupper]
  intro hfirst
  obtain rfl : first = '.' := Option.some.inj hfirst
  exact not_mem_upperCase hc (by decide) (by decide) (hupper ▸ List.mem_cons_self)

end Text

/-- The path is made of names, with single slashes between them, that do not begin with a dot. -/
def Path.IsVisible (p : Path) : Prop :=
  ∀ segment ∈ Text.splitOn '/' p.text, IsFileName segment ∧ segment.head? ≠ some '.'

instance (p : Path) : Decidable p.IsVisible :=
  inferInstanceAs (Decidable (∀ _ ∈ _, _))

namespace Path.IsVisible

variable {p : Path}

/-- The segments of a visible path are names that files can have. -/
theorem isFileName (h : p.IsVisible) : ∀ segment ∈ Text.splitOn '/' p.text, IsFileName segment :=
  fun segment hsegment => (h segment hsegment).1

/-- Such a path never climbs. -/
theorem up_not_mem_moves (h : p.IsVisible) : .up ∉ p.moves := by
  intro hup
  obtain ⟨segment, hsegment, hcomponent⟩ := List.mem_filterMap.1 hup
  rw [(h.isFileName segment hsegment).component?] at hcomponent
  cases hcomponent

end Path.IsVisible

/-- **The names that lead to a runnable program** can be seen if the place of its guide can. -/
theorem Generation.exists_names_runnable {publisher : Publisher} {settings : Settings}
    {fs : FileSystem} {path file : Path} (g : Generation publisher settings fs path)
    (hvisible : g.place.IsVisible) (hfile : file ∈ g.plan.outputs.runnable) :
    ∃ names, names ≠ [] ∧ (∀ name ∈ names, Path.IsFileName name ∧ name.head? ≠ some '.') ∧
      file = settings.runnable.descend names := by
  rw [g.runnable_eq] at hfile
  obtain ⟨index, rfl⟩ := exists_index_of_mem_programPaths hfile
  have hname := isFileName_program (Text.not_mem_capitalize g.not_mem_pageName) g.not_mem_extension
    index
  obtain ⟨front, last, hsegments⟩ :=
    (List.eq_nil_or_concat' (Text.splitOn '/' g.place.text)).resolve_left (Text.splitOn_ne_nil _ _)
  have hplace : g.place = ⟨Text.join ['/'] (front ++ [last])⟩ := by
    rw [← hsegments, Text.join_splitOn]
  have hnames := hvisible.isFileName
  have hseen := hvisible
  rw [Path.IsVisible] at hseen
  rw [hsegments] at hnames hseen
  have hfront : ∀ name ∈ front, Path.IsFileName name :=
    fun name hmem => hnames name (List.mem_append_left _ hmem)
  have hlast := hseen last (List.mem_append_right _ (List.mem_singleton.2 rfl))
  have hdirectory : g.within .runnable = ⟨Text.join ['/'] front⟩ := by
    rw [within, hplace, GuideFile.directoryOf_names hnames]
  have hpage : g.pageName = last := by
    rw [pageName, hplace, Path.fileName?_names hnames (by simp), List.getLast?_concat]
    rfl
  refine ⟨front ++ [programName (Text.capitalize g.pageName) g.file.extension index], by simp,
    fun name hmem => ?_, ?_⟩
  · rcases List.mem_append.1 hmem with hmem | hmem
    · exact hseen name (List.mem_append_left _ hmem)
    · obtain rfl := List.mem_singleton.1 hmem
      refine ⟨hname, ?_⟩
      rw [programName, List.append_assoc, hpage]
      exact Text.head?_capitalize_append (hlast.1.ne_of_isSilent rfl) hlast.2 _
  · rw [hdirectory, Path.join_names_join hfront hname]

/-! ### What lies beneath the root -/

/-- There is no directory at the path yet, or one with nothing in it. -/
def FileSystem.Fresh (fs : FileSystem) (root : Path) : Prop :=
  ∀ place, root.resolve fs.here <+: place → place ≠ root.resolve fs.here →
    fs.tree.entryAt? place = none

/-- Whether there is nothing in a directory yet can be told from the table. -/
theorem FileSystem.fresh_iff {fs : FileSystem} {root : Path} : fs.Fresh root ↔
    ∀ place ∈ fs.tree.entries.keys, root.resolve fs.here <+: place →
      place = root.resolve fs.here := by
  have hentry : ∀ {place : Location}, root.resolve fs.here <+: place →
      place ≠ root.resolve fs.here → fs.tree.entryAt? place = fs.tree.entries.get? place := by
    intro place hbelow hne
    refine if_neg fun hroot => hne ?_
    rw [hroot] at hbelow ⊢
    exact (List.prefix_nil.1 hbelow).symm
  constructor
  · intro hempty place hplace hbelow
    by_contra hne
    rw [fs.tree.entries.mem_keys_iff, ← hentry hbelow hne, hempty place hbelow hne] at hplace
    cases hplace
  · intro hkeys place hbelow hne
    rw [hentry hbelow hne, ← Option.not_isSome_iff_eq_none, ← fs.tree.entries.mem_keys_iff]
    exact fun hplace => hne (hkeys place hplace hbelow)

instance (fs : FileSystem) (root : Path) : Decidable (fs.Fresh root) :=
  decidable_of_iff _ FileSystem.fresh_iff.symm

section Runs

variable {settings : Settings} {fs later : FileSystem} {taken : List (Path × Outcome)}
  (h : Took Guide.publish settings fs taken later) (hapart : settings.Apart fs.here)
  (hsettled : ∀ c ∈ taken, Settled Guide.publish settings fs c.1)

/-- The places of guides can be seen. -/
def PlacesVisible (settings : Settings) (fs : FileSystem) (paths : List Path) : Prop :=
  ∀ path ∈ paths, ∀ place ∈ placeFor? Guide.publish settings fs path, place.IsVisible

instance (settings : Settings) (fs : FileSystem) (paths : List Path) :
    Decidable (PlacesVisible settings fs paths) :=
  inferInstanceAs (Decidable (∀ _ ∈ _, _))

include h hapart hsettled in
/-- The names that lead to a runnable program of a run can be seen. -/
theorem Took.exists_names_runnable (hvisible : PlacesVisible settings fs (taken.map Prod.fst))
    {file : Path} (hfile : file ∈ (Report.ofTaken settings taken).runnable) :
    ∃ names, names ≠ [] ∧ (∀ name ∈ names, Path.IsFileName name ∧ name.head? ≠ some '.') ∧
      file = settings.runnable.descend names := by
  rw [(Report.ofTaken_lists settings taken).2.1] at hfile
  obtain ⟨c, hc, hfile⟩ := List.mem_flatMap.1 hfile
  obtain ⟨g, hfile⟩ := h.exists_generation_of_runnable hapart hsettled hc hfile
  exact g.exists_names_runnable
    (hvisible c.1 (List.mem_map_of_mem hc) g.place (placeFor?_of_generation g)) hfile

include h hapart hsettled in
/-- **What a run leaves beneath the root for runnable programs** is what it reports, if there was
nothing before. -/
theorem Took.isFile_iff (hfresh : fs.Fresh settings.runnable)
    (hvisible : PlacesVisible settings fs (taken.map Prod.fst)) {names : List Text}
    (hne : names ≠ []) (hnames : ∀ name ∈ names, Path.IsFileName name) :
    later.isFile (settings.runnable.descend names) = true ↔
      settings.runnable.descend names ∈ (Report.ofTaken settings taken).runnable := by
  have haccount := h.account
  have hhere := h.performed.change.here
  have hplace := Path.resolve_descend hnames settings.runnable fs.here
  constructor
  · intro hfile
    obtain ⟨content, -, hentry⟩ := FileSystem.entryAt?_of_isFile hfile
    rw [hhere] at hentry
    have hnone := hfresh ((settings.runnable.descend names).resolve fs.here)
      (by rw [hplace]; exact List.prefix_append _ _) (by rw [hplace]; simpa using hne)
    obtain ⟨file, hreported, hmeets⟩ := haccount.changed _ content (.inr hentry)
      (by rw [hentry, hnone]; exact Option.some_ne_none _)
    have hbeneath : Beneath fs.here (settings.root .runnable) (settings.runnable.descend names) :=
      ⟨by rw [hplace]; exact List.prefix_append _ _,
       by rw [hplace]; simpa [Settings.root] using hne⟩
    obtain ⟨hpages, -, hexported⟩ := h.beneath_files hapart hsettled
    rcases Report.mem_files.1 hreported with hpage | hrunnable | hprogram
    · exact absurd hmeets (hapart.resolve_ne (by decide : OutputKind.page ≠ .runnable)
        (hpages file hpage) hbeneath)
    · -- The names that lead to the same place are the same.
      obtain ⟨others, -, hothers, rfl⟩ := h.exists_names_runnable hapart hsettled hvisible hrunnable
      rw [Path.resolve_descend fun name hname => (hothers name hname).1, hplace] at hmeets
      rwa [← List.append_cancel_left hmeets]
    · exact absurd hmeets (hapart.resolve_ne (by decide : OutputKind.exported ≠ .runnable)
        (hexported file hprogram) hbeneath)
  · intro hreported
    obtain ⟨hlocate, content, -, hread⟩ :=
      haccount.listed _ (Report.mem_files.2 (.inr (.inl hreported)))
    obtain ⟨place, hfound, hentry⟩ := FileSystem.read_ok_iff.1 hread
    obtain rfl := FileSystem.eq_resolve_of_locate hfound
    exact FileSystem.isFile_iff.2 ⟨_, FileSystem.entryAt?_eq_some_iff.2 ⟨hfound, hentry⟩⟩

include h hapart hsettled in
/-- A scan behind the run finds what it reports. -/
theorem Took.mem_listed_iff (hroot : settings.runnable.text ≠ [])
    (hfresh : fs.Fresh settings.runnable)
    (hvisible : PlacesVisible settings fs (taken.map Prod.fst)) (hnamed : later.WellNamed)
    {listed : Scan} (hlisted : Scan.below later settings.runnable [] = .ok listed) {path : Path} :
    path ∈ listed.files ↔ path ∈ (Report.ofTaken settings taken).runnable := by
  constructor
  · intro hpath
    obtain ⟨names, hne, hnames, rfl, hfile⟩ := Scan.exists_descend_of_below hnamed hlisted hpath
    exact (h.isFile_iff hapart hsettled hfresh hvisible hne hnames).1 hfile
  · intro hpath
    obtain ⟨names, hne, hnames, rfl⟩ := h.exists_names_runnable hapart hsettled hvisible hpath
    refine Scan.mem_files_below hlisted hroot hne hnames ?_
    exact (h.isFile_iff hapart hsettled hfresh hvisible hne
      fun name hname => (hnames name hname).1).2 hpath

include h hapart hsettled in
/-- The class of a runnable program by its content tells the guide that has written it last. -/
theorem Took.exists_ofContent_runnable
    (hlines : ∀ c ∈ taken, ∀ name ∈ settings.directoryNames c.1, '\n' ∉ name)
    {file : Path} (hfile : file ∈ (Report.ofTaken settings taken).runnable) :
    ProgramBelow settings.runnable file ∧
      ∃ c, LastToWrite fs.here settings taken file c ∧
        EntryPoint.ofContent later settings.runnable file =
          .ok (EntryPoint.ofNames (settings.directoryNames c.1) (file.stem?.getD [])) := by
  have hlisted := hfile
  rw [(Report.ofTaken_lists settings taken).2.1] at hlisted
  obtain ⟨d, hd, hmem⟩ := List.mem_flatMap.1 hlisted
  have hprogram := h.programBelow_runnable hd hmem
  have hbeneath := (h.beneath_files hapart hsettled).2.1 file hfile
  obtain ⟨c, hlast, ⟨written⟩⟩ := h.exists_program (.inl hfile)
  refine ⟨hprogram, c, hlast, ?_⟩
  have hc := hlast.mem
  have hnames := settings.directoryNames_of_ofPath? written.found
  have hline := hlines c hc
  rw [hnames] at hline
  rcases written.kind with ⟨-, hlink⟩ | ⟨⟨p, hp, hplace⟩, -⟩
  · rw [hprogram.ofContent_eq written.read hline (by rw [hlink]; simp), hnames,
      GuideFile.toNamespace, EntryPoint.className_ofDirectory]
  · obtain ⟨g, hp⟩ := h.exists_generation_of_exported hapart hsettled hc hp
    exact absurd hplace (hapart.resolve_ne (by decide : OutputKind.exported ≠ .runnable)
      ((hsettled c hc).beneath_exported g hp) hbeneath)

end Runs

/-! ### Listings -/

/-- **What a scan lists behind a run, and the classes.** Where there was nothing in the directory
for runnable programs, the roots lie apart, the places of the guides are made of names that can be
seen, and no directory of a guide has a line feed in its name: a scan of the directory behind a run
over the guides finds the runnable programs that the run reports, each once, in ascending order, and
the class of each by its content is named after the directories of the guide that has written it
last. The path of that directory must not be empty, since nothing can be listed by the empty path;
beneath that one, component by component, any other relative root would lie. -/
theorem classes_listed {settings : Settings} {fs : FileSystem} {exclude : ExcludeSet}
    {found : Scan} {report : Report} (hnamed : fs.WellNamed)
    (hroot : settings.runnable.text ≠ []) (hfresh : fs.Fresh settings.runnable)
    (hfound : Scan.below fs settings.sources exclude = .ok found) (hapart : settings.Apart fs.here)
    (hvisible : PlacesVisible settings fs found.files)
    (hlines : ∀ path ∈ found.files, ∀ name ∈ settings.directoryNames path, '\n' ∉ name)
    (h : (generate Guide.publish settings fs found.files).result = .ok report) :
    ∃ listed classes,
      Scan.below (generate Guide.publish settings fs found.files).fs settings.runnable [] =
        .ok listed ∧
      listed.files.Pairwise (fun p q => p.before q = true) ∧
      (∀ path, path ∈ listed.files ↔ path ∈ report.runnable) ∧
      EntryPoint.namesByContent (generate Guide.publish settings fs found.files).fs
        settings.runnable listed.files = .ok classes ∧
      List.Forall₂ (fun path name => ∃ c,
        LastToWrite fs.here settings (outcomesOf Guide.publish settings fs found.files) path c ∧
          name = EntryPoint.ofNames (settings.directoryNames c.1) (path.stem?.getD []))
        listed.files classes := by
  obtain ⟨taken, hpaths, htook, rfl⟩ := exists_took h
  have hperformed := htook.performed
  have houtcomes : outcomesOf Guide.publish settings fs found.files = taken := by
    rw [← hpaths, htook.outcomesOf_eq]
  have hmem : ∀ c ∈ taken, c.1 ∈ found.files := fun c hc => hpaths ▸ List.mem_map_of_mem hc
  have hsettled : ∀ c ∈ taken, Settled Guide.publish settings fs c.1 := fun c hc =>
    .of_below hnamed hfound (hmem c hc) fun place hplace =>
      GuideFile.staysBelow_directoryOf (hvisible c.1 (hmem c hc) place hplace).up_not_mem_moves
  rw [← hpaths] at hvisible
  generalize (generate Guide.publish settings fs found.files).fs = later at *
  have hnamedLater := hperformed.wellNamed hnamed
  obtain ⟨events, hlisted⟩ := Scan.files_below later settings.runnable []
  have hsame : ∀ path, path ∈ Path.sort (Scan.filesIn later [] settings.runnable
      (Scan.depthBound later) settings.runnable) ↔
        path ∈ (Report.ofTaken settings taken).runnable := fun path =>
    htook.mem_listed_iff hapart hsettled hroot hfresh hvisible hnamedLater hlisted
  have hclasses := fun path hpath => htook.exists_ofContent_runnable hapart hsettled
    (fun c hc => hlines c.1 (hmem c hc)) ((hsame path).1 hpath)
  obtain ⟨classes, hnames, hall⟩ := exists_mapM fun path hpath =>
    let ⟨c, hlast, hclass⟩ := (hclasses path hpath).2
    (⟨_, hclass, c, hlast, rfl⟩ : ∃ name, EntryPoint.ofContent later settings.runnable path =
      .ok name ∧ ∃ c, LastToWrite fs.here settings taken path c ∧
        name = EntryPoint.ofNames (settings.directoryNames c.1) (path.stem?.getD []))
  refine ⟨_, classes, hlisted, Scan.ascending_files_below hnamedLater hlisted, hsame, ?_, ?_⟩
  · rw [EntryPoint.namesByContent, filter_isProgram fun path hpath => (hclasses path hpath).1,
      hnames]
  · rw [houtcomes]
    exact hall

/-- Three guides, of which the first and the last have their programs at one place. -/
def guidesTogether : FileSystem :=
  .ofTree [["src".toList], ["src".toList, "a".toList], ["src".toList, "b".toList]]
    [(["src".toList, "a".toList], "x.kt".toList, guideAt "v/p".toList "Application".toList),
      (["src".toList, "a".toList], "y.kt".toList, guideAt "u/p".toList "Application".toList),
      (["src".toList, "b".toList], "x.kt".toList, guideAt "v/p".toList "Application".toList)]

/-- The program at the place that they share is in the package of the last. -/
theorem classes_listed_of_guidesTogether :
    Scan.below (generate Guide.publish .plain guidesTogether
          [⟨"src/a/x.kt".toList⟩, ⟨"src/a/y.kt".toList⟩, ⟨"src/b/x.kt".toList⟩]).fs
        ⟨"run".toList⟩ [] =
      .ok ⟨[⟨"run/u/P000.kt".toList⟩, ⟨"run/v/P000.kt".toList⟩], []⟩ ∧
    EntryPoint.namesByContent (generate Guide.publish .plain guidesTogether
          [⟨"src/a/x.kt".toList⟩, ⟨"src/a/y.kt".toList⟩, ⟨"src/b/x.kt".toList⟩]).fs
        ⟨"run".toList⟩ [⟨"run/u/P000.kt".toList⟩, ⟨"run/v/P000.kt".toList⟩] =
      .ok ["examples.a.P000Kt".toList, "examples.b.P000Kt".toList] ∧
    List.Forall₂ (fun path name => ∃ c,
        LastToWrite [] .plain (outcomesOf Guide.publish .plain guidesTogether
          [⟨"src/a/x.kt".toList⟩, ⟨"src/a/y.kt".toList⟩, ⟨"src/b/x.kt".toList⟩]) path c ∧
        name = EntryPoint.ofNames (Settings.plain.directoryNames c.1) (path.stem?.getD []))
      [⟨"run/u/P000.kt".toList⟩, ⟨"run/v/P000.kt".toList⟩]
      ["examples.a.P000Kt".toList, "examples.b.P000Kt".toList] := by
  obtain ⟨listed, classes, hlisted, -, -, hclasses, hall⟩ :=
    @classes_listed .plain guidesTogether []
    ⟨[⟨"src/a/x.kt".toList⟩, ⟨"src/a/y.kt".toList⟩, ⟨"src/b/x.kt".toList⟩], []⟩
    { Report.empty with
      pages := [⟨"pages/v/p.markdown".toList⟩, ⟨"pages/u/p.markdown".toList⟩,
        ⟨"pages/v/p.markdown".toList⟩]
      runnable := [⟨"run/v/P000.kt".toList⟩, ⟨"run/u/P000.kt".toList⟩,
        ⟨"run/v/P000.kt".toList⟩] }
    (by decide +kernel) (by decide +kernel) (by decide +kernel) (by decide +kernel)
    (by decide +kernel) (by decide +kernel) (by decide +kernel) (by decide +kernel)
  have hscan : Scan.below (generate Guide.publish .plain guidesTogether
        [⟨"src/a/x.kt".toList⟩, ⟨"src/a/y.kt".toList⟩, ⟨"src/b/x.kt".toList⟩]).fs
      ⟨"run".toList⟩ [] =
      .ok ⟨[⟨"run/u/P000.kt".toList⟩, ⟨"run/v/P000.kt".toList⟩], []⟩ := by
    decide +kernel
  have hnames : EntryPoint.namesByContent (generate Guide.publish .plain guidesTogether
        [⟨"src/a/x.kt".toList⟩, ⟨"src/a/y.kt".toList⟩, ⟨"src/b/x.kt".toList⟩]).fs
      ⟨"run".toList⟩ [⟨"run/u/P000.kt".toList⟩, ⟨"run/v/P000.kt".toList⟩] =
      .ok ["examples.a.P000Kt".toList, "examples.b.P000Kt".toList] := by
    decide +kernel
  obtain rfl := Except.ok.inj (hlisted.symm.trans hscan)
  obtain rfl := Except.ok.inj (hclasses.symm.trans hnames)
  exact ⟨hscan, hnames, hall⟩

end Guidebook
