import Guidebook.Proofs.Batch.Sources

/-!
# What a Publication Yields

A publication with its page, its runnable and its exported programs is put in its place file by
file. If its directive `URL` names a place by names alone, each file can be told beforehand: the
page and the runnable programs lie under these names, the exported programs where their guide lies
below its own root, and the programs are numbered, however many they are.

No two of these files meet. Those of one kind differ in their names, and those of two kinds lie
beneath roots that lie apart. So nothing that has been written is written over, and in the end each
file holds what has been written for it.

## Main results

* `publishPlace?_of_names`: the place that a directive `URL` names.
* `Placed.nodup_files`: **no two files of a publication meet**.
* `yield_writePublication`: **what a publication yields**.
-/

namespace Guidebook

/-! ### The files of a publication -/

/-- A directive `URL` that consists of names between slashes, but for blanks around it and slashes
in front, names the place with these names. -/
theorem publishPlace?_of_names {directives : Directives} {url : Text} {names : List Text}
    (hurl : directives.get? "URL".toList = some url)
    (hplace : (Text.trim url).dropWhile (· = '/') = Text.join ['/'] names)
    (hne : Text.join ['/'] names ≠ []) :
    publishPlace? directives = some ⟨Text.join ['/'] names⟩ := by
  rw [publishPlace?, hurl]
  simp only [hplace, if_neg hne]

/-- What the place of a publication and the guide decide: the names that lead to the page and the
runnable programs below their roots, and the directory of the exported programs. -/
structure Placed (settings : Settings) (file : GuideFile) (publication : Publication)
    (segments : List Text) (base : Text) (outputs : Outputs) : Prop where
  page : outputs.page = settings.pages.descend (segments ++ [base ++ ".markdown".toList])
  runnable : outputs.runnable = (List.range publication.runnable.length).map fun index =>
    settings.runnable.descend
      (segments ++ [programName (Text.capitalize base) "kt".toList index])
  exported : outputs.exported = (List.range publication.exported.length).map fun index =>
    (settings.exported.join file.relativeDirectory).join ⟨programName file.name "kt".toList index⟩

section Files

variable {settings : Settings} {file : GuideFile} {publication : Publication} {segments : List Text}
  {base : Text} {outputs : Outputs}

/-- The files of a plan for a place that consists of names. -/
theorem placed_of_names (hnames : ∀ name ∈ segments ++ [base], Path.IsFileName name)
    (hextension : file.extension = "kt".toList) :
    Placed settings file publication segments base
      (Plan.ofPublication settings file publication
        ⟨Text.join ['/'] (segments ++ [base])⟩).outputs := by
  obtain ⟨hsegments, hbase⟩ := List.forall_mem_append.1 hnames
  have hclean := (hbase base (List.mem_singleton.2 rfl)).clean
  have hdirectory := GuideFile.directoryOf_names hnames
  have hname : (⟨Text.join ['/'] (segments ++ [base])⟩ : Path).fileName?.getD [] = base := by
    rw [Path.fileName?_names hnames (by simp), List.getLast?_concat]
    rfl
  have hprogram := isFileName_program (Text.not_mem_capitalize hclean)
    (show '/' ∉ "kt".toList by decide)
  exact {
    page := by
      rw [Plan.ofPublication]
      simp only [hdirectory, hname]
      exact Path.join_names_join hsegments (isFileName_pageOf hclean) settings.pages
    runnable := by
      rw [Plan.ofPublication]
      simp only [hdirectory, hname, hextension, programPaths_eq]
      exact List.map_congr_left fun index _ =>
        Path.join_names_join hsegments (hprogram index) settings.runnable
    exported := by
      rw [Plan.ofPublication]
      simp only [hextension, programPaths_eq] }

namespace Placed

variable (h : Placed settings file publication segments base outputs)

include h in
/-- The page lies beneath the root for pages, by the names of the place. -/
theorem resolve_page (hnames : ∀ name ∈ segments ++ [base], Path.IsFileName name)
    (here : Location) : outputs.page.resolve here =
      settings.pages.resolve here ++ (segments ++ [base ++ ".markdown".toList]) := by
  obtain ⟨hsegments, hbase⟩ := List.forall_mem_append.1 hnames
  rw [h.page]
  refine Path.resolve_descend (List.forall_mem_append.2 ⟨hsegments, fun name hname => ?_⟩) _ here
  obtain rfl := List.mem_singleton.1 hname
  exact isFileName_pageOf (hbase base (List.mem_singleton.2 rfl)).clean

include h in
/-- The runnable programs lie beneath the root for them, by the names of the place but the last,
which is in their names. -/
theorem map_resolve_runnable (hnames : ∀ name ∈ segments ++ [base], Path.IsFileName name)
    (here : Location) : outputs.runnable.map (·.resolve here) =
      programPlaces (settings.runnable.resolve here ++ segments) (Text.capitalize base)
        "kt".toList publication.runnable.length := by
  obtain ⟨hsegments, hbase⟩ := List.forall_mem_append.1 hnames
  rw [h.runnable, List.map_map]
  refine List.map_congr_left fun index _ => ?_
  rw [Function.comp_apply, Path.descend_concat, Path.resolve_file _ (isFileName_program
    (Text.not_mem_capitalize (hbase base (List.mem_singleton.2 rfl)).clean) (by decide) index),
    Path.resolve_descend hsegments]

include h in
/-- The exported programs lie in the directory of the guide, under its name. -/
theorem map_resolve_exported (hname : '/' ∉ file.name) (here : Location) :
    outputs.exported.map (·.resolve here) =
      programPlaces ((settings.exported.join file.relativeDirectory).resolve here) file.name
        "kt".toList publication.exported.length := by
  rw [h.exported, List.map_map]
  exact List.map_congr_left fun index _ =>
    Path.resolve_file _ (isFileName_program hname (by decide) index) here

include h in
/-- **No two files of a publication meet**, however many programs it has. -/
theorem nodup_files {here : Location}
    (hnames : ∀ name ∈ segments ++ [base], Path.IsFileName name) (hname : '/' ∉ file.name)
    (hbeneath : settings.exported.resolve here <+:
      (settings.exported.join file.relativeDirectory).resolve here)
    (hapart : settings.OutputsApart here) :
    ((outputs.page :: (outputs.runnable ++ outputs.exported)).map (·.resolve here)).Nodup := by
  have hpage : (settings.root .page).resolve here <+: outputs.page.resolve here := by
    rw [h.resolve_page hnames]
    exact List.prefix_append _ _
  have hrunnable : ∀ place ∈ outputs.runnable.map (·.resolve here),
      (settings.root .runnable).resolve here <+: place := by
    intro place hplace
    rw [h.map_resolve_runnable hnames] at hplace
    obtain ⟨index, -, rfl⟩ := mem_programPlaces.1 hplace
    rw [List.append_assoc]
    exact List.prefix_append _ _
  have hexported : ∀ place ∈ outputs.exported.map (·.resolve here),
      (settings.root .exported).resolve here <+: place := by
    intro place hplace
    rw [h.map_resolve_exported hname] at hplace
    obtain ⟨index, -, rfl⟩ := mem_programPlaces.1 hplace
    exact hbeneath.trans (List.prefix_append _ _)
  rw [List.map_cons, List.map_append, List.nodup_cons, List.mem_append, not_or, List.nodup_append']
  refine ⟨⟨fun hmem => ?_, fun hmem => ?_⟩, ?_, ?_, fun place hone htwo => ?_⟩
  · exact hapart.not_prefix (by decide) hpage (hrunnable _ hmem)
  · exact hapart.not_prefix (by decide) hpage (hexported _ hmem)
  · rw [h.map_resolve_runnable hnames]
    exact nodup_programPlaces _ _ _ _
  · rw [h.map_resolve_exported hname]
    exact nodup_programPlaces _ _ _ _
  · exact hapart.not_prefix (by decide) (hrunnable place hone) (hexported place htwo)

end Placed

end Files

/-! ### What is on disk -/

/-- What a publication yields: its files are those that its place and the guide decide, no two of
them meet, each holds what has been written for it, and no other file is new or different. -/
structure Yield (settings : Settings) (fs later : FileSystem) (file : GuideFile)
    (publication : Publication) (segments : List Text) (base : Text) (outputs : Outputs) : Prop
    extends Placed settings file publication segments base outputs where
  nodup : ((outputs.page :: (outputs.runnable ++ outputs.exported)).map (·.resolve fs.here)).Nodup
  read_page : later.read outputs.page =
    .ok ((FrontMatter.ofDirectives (settings.citedPath file) publication.directives).render ++
      publication.page)
  /-- The first runnable program is in the first of their files, and so on; and the same holds of
  the exported programs. -/
  read_runnable : List.Forall₂ (fun path program => later.read path = .ok program)
    outputs.runnable publication.runnable
  read_exported : List.Forall₂ (fun path program => later.read path = .ok program)
    outputs.exported publication.exported
  other : ∀ place content, (fs.tree.entryAt? place = some (.file content) ∨
      later.tree.entryAt? place = some (.file content)) →
    later.tree.entryAt? place ≠ fs.tree.entryAt? place →
    ∃ path ∈ outputs.page :: (outputs.runnable ++ outputs.exported), path.resolve fs.here = place

/-- Where the steps of a plan have been carried out, and no two of its files meet, they yield its
publication. -/
theorem Placed.yield_of_performed {settings : Settings} {fs later : FileSystem} {file : GuideFile}
    {publication : Publication} {segments : List Text} {base : Text} {place : Path}
    (h : Placed settings file publication segments base
      (Plan.ofPublication settings file publication place).outputs)
    (hnodup : (((Plan.ofPublication settings file publication place).outputs.page ::
      ((Plan.ofPublication settings file publication place).outputs.runnable ++
        (Plan.ofPublication settings file publication place).outputs.exported)).map
          (·.resolve fs.here)).Nodup)
    (hperformed : Performed fs (Plan.ofPublication settings file publication place).steps later) :
    Yield settings fs later file publication segments base
      (Plan.ofPublication settings file publication place).outputs := by
  have hpaths := Plan.map_fst_writesOf_steps settings file publication place
  have hwrites := Plan.writesOf_steps settings file publication place
  generalize (Plan.ofPublication settings file publication place).outputs = outputs at *
  generalize (Plan.ofPublication settings file publication place).steps = steps at *
  have hread : ∀ {path content}, (path, content) ∈ writesOf steps →
      later.read path = .ok content := by
    intro path content hmem
    refine hperformed.read_of_nodup ?_ hmem
    rwa [← hpaths, List.map_map] at hnodup
  rw [hwrites] at hread
  exact {
    toPlaced := h
    nodup := hnodup
    read_page := hread List.mem_cons_self
    read_runnable := List.forall₂_iff_zip.2 ⟨by rw [h.runnable]; simp, fun hmem =>
      hread (List.mem_cons_of_mem _ (List.mem_append_left _ hmem))⟩
    read_exported := List.forall₂_iff_zip.2 ⟨by rw [h.exported]; simp, fun hmem =>
      hread (List.mem_cons_of_mem _ (List.mem_append_right _ hmem))⟩
    other := by
      intro place content hcontent hdiffers
      obtain ⟨w, hw, hresolve⟩ := hperformed.change.exists_write hcontent hdiffers
      exact ⟨w.1, hpaths ▸ List.mem_map_of_mem hw, hresolve⟩ }

/-- **What a publication yields.** Take a guide that has been found below the root of the guides,
and a publication whose directive `URL` consists of names, but for blanks around it and slashes in
front. If the roots of the outputs lie apart, and the publication is put in its place without
failure, then its files are the page, the runnable programs and the exported programs under the
names that follow from these; they are all different, and each of them holds its content. -/
theorem yield_writePublication {settings : Settings} {scanned fs : FileSystem}
    {exclude : ExcludeSet} {found : Scan} {path : Path} {file : GuideFile}
    {publication : Publication} {url base : Text} {segments : List Text} {outputs : Outputs}
    (hnamed : scanned.WellNamed)
    (hfound : Scan.below scanned settings.sources exclude = .ok found) (hpath : path ∈ found.files)
    (hguide : path.extension? = some "kt".toList)
    (hfile : GuideFile.ofPath? settings.sources path = some file)
    (hurl : publication.directives.get? "URL".toList = some url)
    (hplace : (Text.trim url).dropWhile (· = '/') = Text.join ['/'] (segments ++ [base]))
    (hnames : ∀ name ∈ segments ++ [base], Path.IsFileName name)
    (hapart : settings.OutputsApart fs.here)
    (h : (writePublication settings fs file publication).result = .ok outputs) :
    Yield settings fs (writePublication settings fs file publication).fs file publication segments
      base outputs := by
  obtain ⟨place, hpublished, hsteps, rfl, hfs⟩ := exists_place_of_writePublication h
  have hne : Text.join ['/'] (segments ++ [base]) ≠ [] :=
    (Text.join_eq_nil_iff fun name hname => (hnames name hname).ne_of_isSilent rfl).not.2 (by simp)
  obtain rfl := Option.some.inj
    (hpublished.symm.trans (publishPlace?_of_names hurl hplace hne))
  obtain ⟨relative, -, hwhole⟩ := GuideFile.eq_of_ofPath? hguide hfile
  have hname : '/' ∉ file.name := by
    rw [hwhole]
    exact Path.not_mem_stem _
  have hplaced := @placed_of_names settings file publication segments base hnames
    (show file.extension = "kt".toList by rw [hwhole])
  -- The directory of the exported programs lies below their root, since the guide has been found.
  obtain ⟨names, -, hfoundNames, rfl, -⟩ := Scan.exists_descend_of_below hnamed hfound hpath
  have hbeneath : settings.exported.resolve fs.here <+:
      (settings.exported.join file.relativeDirectory).resolve fs.here := by
    rw [GuideFile.resolve_join_relativeDirectory hfoundNames hfile]
    exact List.prefix_append _ _
  rw [hfs]
  exact hplaced.yield_of_performed (hplaced.nodup_files hnames hname hbeneath hapart)
    (performed_performAll hsteps)

/-- A guide in a directory below the root of the guides. -/
def FileSystem.guideInDirectory : FileSystem :=
  .ofTree [["src".toList], ["src".toList, "d".toList]]
    [(["src".toList, "d".toList], "a.kt".toList, [])]

/-- That guide, as it is found there. -/
def GuideFile.inDirectory : GuideFile :=
  ⟨⟨"src/d/a.kt".toList⟩, ⟨"d/a.kt".toList⟩, ⟨"d".toList⟩, "a".toList, "kt".toList⟩

/-- A publication with two programs of each kind, whose page is to be called `h`, in `g`. -/
def Publication.twoOfEach : Publication where
  directives := ⟨[("URL".toList, " /g/h".toList)], List.pairwise_singleton _ _⟩
  page := "page".toList
  runnable := ["first".toList, "second".toList]
  exported := ["one".toList, "two".toList]

/-- The files of that publication, if it is that of the guide. -/
theorem yield_of_guideInDirectory :
    Yield .plain .guideInDirectory
      (writePublication .plain .guideInDirectory .inDirectory .twoOfEach).fs .inDirectory .twoOfEach
      ["g".toList] "h".toList
      { page := ⟨"pages/g/h.markdown".toList⟩
        runnable := [⟨"run/g/H000.kt".toList⟩, ⟨"run/g/H001.kt".toList⟩]
        exported := [⟨"out/d/a000.kt".toList⟩, ⟨"out/d/a001.kt".toList⟩] } :=
  @yield_writePublication .plain .guideInDirectory .guideInDirectory []
    ⟨[⟨"src/d/a.kt".toList⟩], []⟩ ⟨"src/d/a.kt".toList⟩ .inDirectory .twoOfEach " /g/h".toList
    "h".toList ["g".toList] _ (by decide +kernel) (by decide +kernel) (by decide +kernel)
    (by decide +kernel) (by decide +kernel) (by decide +kernel) (by decide +kernel)
    (by decide +kernel) (by decide +kernel) (by decide +kernel)

end Guidebook
