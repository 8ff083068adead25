import Guidebook.Proofs.Batch.Programs
import Guidebook.Proofs.Guide.Composition

/-!
# Links Name Files

An exported program tells where it is published. The link is made when the guide is published, from
the address, the directory of the guide and the number of the program; the file is named when the
publication is put in its place, from the directory for exported programs and the same number. The
two agree: behind `examples`, the link names the file as it lies below that directory.

## Main results

* `PublicLink.address_ofGuide`: the link of a program, in terms of its file.
* `Generation.read_exported`: what lies at the paths of the exported programs.
* `exists_exported_program`: **links name files**.
-/

namespace Guidebook

/-! ### Names in paths -/

namespace Path

/-- A name in a path holds no slash. -/
theorem not_mem_of_fileName? {p : Path} {name : Text} (h : p.fileName? = some name) :
    '/' ∉ name :=
  (isFileName_of_fileName? h).clean

/-- The stem of a file name is part of it. -/
theorem mem_of_mem_stemOf {name : Text} {c : Char} (h : c ∈ stemOf name) : c ∈ name := by
  unfold stemOf at h
  split at h
  · next first before after hsplit =>
    unfold splitLastDot? at hsplit
    split at hsplit
    · simp at hsplit
    · next dot rest hdrop =>
      obtain ⟨hfront, -⟩ := Prod.mk.inj (Option.some.inj hsplit)
      rw [← hfront, List.mem_reverse] at h
      have hrest : c ∈ name.reverse.dropWhile (· ≠ '.') := hdrop ▸ List.mem_cons_of_mem dot h
      exact List.mem_reverse.1 ((List.dropWhile_suffix _).mem hrest)
  · exact h

/-- The stem of a file name holds no slash. -/
theorem not_mem_stem (p : Path) : '/' ∉ p.stem?.getD [] := by
  rw [stem?]
  cases hname : p.fileName? with
  | none => simp
  | some name => exact fun hmem => not_mem_of_fileName? hname (mem_of_mem_stemOf hmem)

end Path

/-! ### Links -/

/-- **The link of a program** names what is written of its file below the directory for exported
programs. -/
theorem PublicLink.address_ofGuide (base : Text) (file : GuideFile) (index : Nat) :
    (ofGuide base file).address index =
      Text.dropEndWhile (· = '/') base ++ "/examples/".toList ++
        (if file.relativeDirectory.slashed = [] then programName file.name file.extension index
        else file.relativeDirectory.slashed ++ '/' ::
          programName file.name file.extension index) := by
  have hexamples : "/examples/".toList = '/' :: Namespace.root ++ ['/'] := by decide
  rw [hexamples, address, ofGuide]
  split <;> simp [programName]

/-- A program with a link begins with the comment that holds it. -/
theorem link_front (package : Text) (imports : List Text) (link code : Text) :
    "// This example is published at ".toList ++ link ++ "\n\n".toList <+:
      program package imports (some link) code := by
  have hcomment : linkComment (some link) =
      "// This example is published at ".toList ++ link ++ "\n\n".toList := rfl
  rw [program, ← hcomment]
  simp only [List.append_assoc, List.prefix_append]

/-- A program without a link begins with its package. -/
theorem package_front (package : Text) (imports : List Text) (code : Text) :
    "package ".toList ++ package ++ "\n".toList <+: program package imports none code := by
  have hcomment : linkComment none = [] := rfl
  have hfeed : "\n".toList <+: "\n\n".toList := ⟨['\n'], by decide⟩
  rw [program, hcomment]
  simp only [List.nil_append, List.append_assoc, List.prefix_append_right_inj]
  exact hfeed.trans (List.prefix_append _ _)

namespace Generation

variable {settings : Settings} {fs : FileSystem} {path : Path}

/-- The guide of a generation is told by its path: where it lies below the root, and what it is
called. -/
theorem file_eq {publisher : Publisher} (g : Generation publisher settings fs path) :
    ∃ relative, path.relativeTo? settings.sources = some relative ∧
      g.file = ⟨path, relative, GuideFile.directoryOf relative, path.stem?.getD [],
        "kt".toList⟩ :=
  GuideFile.eq_of_ofPath? g.isGuide g.found

/-- The name of a guide holds no slash. -/
theorem not_mem_name {publisher : Publisher} (g : Generation publisher settings fs path) :
    '/' ∉ g.file.name := by
  obtain ⟨relative, -, hfile⟩ := g.file_eq
  rw [hfile]
  exact path.not_mem_stem

/-- The extension of a guide holds no slash. -/
theorem not_mem_extension {publisher : Publisher} (g : Generation publisher settings fs path) :
    '/' ∉ g.file.extension := by
  obtain ⟨relative, -, hfile⟩ := g.file_eq
  have hextension : g.file.extension = "kt".toList := by rw [hfile]
  rw [hextension]
  decide

/-- The file of each exported program is named by the number of the program. -/
theorem exported_getElem {publisher : Publisher} (g : Generation publisher settings fs path)
    {index : Nat} (hindex : index < g.plan.outputs.exported.length) :
    g.plan.outputs.exported[index] =
      (settings.exported.join g.file.relativeDirectory).join
        ⟨programName g.file.name g.file.extension index⟩ :=
  List.getElem_mapIdx

/-- The exported programs of a generation are where its plan has put them. -/
theorem read_exported {publisher : Publisher} (g : Generation publisher settings fs path)
    (h : (performAll fs g.plan.steps).result = .ok ()) {index : Nat}
    (hindex : index < g.publication.exported.length) :
    (performAll fs g.plan.steps).fs.read
      ((settings.exported.join g.file.relativeDirectory).join
        ⟨programName g.file.name g.file.extension index⟩) = .ok g.publication.exported[index] := by
  obtain ⟨before, hsteps⟩ : ∃ before, g.plan.steps = before ++
      programSteps .exported (settings.exported.join g.file.relativeDirectory)
        (programPaths (settings.exported.join g.file.relativeDirectory) g.file.name
          g.file.extension g.publication.exported) g.publication.exported := ⟨_, rfl⟩
  have hne : g.publication.exported ≠ [] := by
    rintro hnil
    rw [hnil] at hindex
    exact absurd hindex (Nat.not_lt_zero index)
  rw [hsteps, programSteps_eq _ _ _ _ hne] at h ⊢
  obtain ⟨hbefore, hprograms⟩ := performAll_append_eq_ok_iff.1 h
  obtain ⟨hensure, hwrites⟩ := performAll_cons_eq_ok_iff.1 hprograms
  rw [fs_performAll_append hbefore, performAll, Run.fs_andThen hensure]
  have hnames : ∀ file ∈ programFiles g.file.name g.file.extension g.publication.exported,
      Path.IsFileName file.1 :=
    isFileName_of_mem_programFiles g.not_mem_name g.not_mem_extension
  have hfiles := read_performAll_writes hnames (nodup_programFiles _ _ _) hwrites
  have hread := hfiles _ (mem_programFiles g.file.name g.file.extension hindex)
  exact hread

/-- Each exported program is that of some code, with the link of its number. -/
theorem exported_eq_program (g : Generation Guide.publish settings fs path) {index : Nat}
    (hindex : index < g.publication.exported.length) :
    ∃ imports code, g.publication.exported[index] =
      program g.file.toNamespace.package imports
        (settings.rootUrl.map fun base => (PublicLink.ofGuide base g.file).address index) code := by
  obtain ⟨guide, -, hpublication⟩ := Guide.publish_eq_ok_iff.1 g.published
  have hexported : g.publication.exported =
      (guide.codes CodeKind.isExported).mapIdx fun index code =>
        program g.file.toNamespace.package guide.imports
          (settings.rootUrl.map fun base => (PublicLink.ofGuide base g.file).address index)
          code := by
    rw [hpublication, Guide.publication]
    simp only [Option.map_map]
    rfl
  exact ⟨guide.imports, _, (List.getElem_of_eq hexported hindex).trans List.getElem_mapIdx⟩

end Generation

/-- **Links name files.** Where a guide has been generated, each exported program lies at its path.
With a public address, it begins with a comment with its link, which is the address, `examples`, and
the path of the file as seen from the directory for exported programs; without one, it begins with
its package. -/
theorem exists_exported_program {settings : Settings} {fs : FileSystem} {path relative : Path}
    {outputs : Outputs} (hrelative : path.relativeTo? settings.sources = some relative)
    (hplain : relative.isAbsolute = false)
    (h : (processFile Guide.publish settings fs path).result = .ok (.generated outputs))
    (index : Nat) (hindex : index < outputs.exported.length) :
    ∃ content, (processFile Guide.publish settings fs path).fs.read outputs.exported[index] =
        .ok content ∧
      (∀ base, settings.rootUrl = some base →
        ∃ rel, outputs.exported[index].relativeTo? settings.exported = some rel ∧
          "// This example is published at ".toList ++ (Text.dropEndWhile (· = '/') base ++
            "/examples/".toList ++ rel.slashed) ++ "\n\n".toList <+: content) ∧
      (settings.rootUrl = none →
        "package ".toList ++ (Namespace.ofDirectory (GuideFile.directoryOf relative)).package ++
          "\n".toList <+: content) := by
  obtain ⟨g, hsteps, rfl, hfs⟩ := exists_generation h
  obtain ⟨found, hfound, hfile⟩ := g.file_eq
  obtain rfl : found = relative := Option.some.inj (hfound.symm.trans hrelative)
  have hdirectory : g.file.relativeDirectory.isAbsolute = false := by
    rw [hfile]
    exact GuideFile.isAbsolute_directoryOf hplain
  have hname := isFileName_program g.not_mem_name g.not_mem_extension index
  have hprogram : index < g.publication.exported.length := by
    simpa [Generation.plan, Plan.ofPublication, programPaths] using hindex
  obtain ⟨imports, code, hcontent⟩ := g.exported_eq_program hprogram
  rw [hfs, g.exported_getElem hindex]
  refine ⟨_, g.read_exported hsteps hprogram, ?_, ?_⟩
  · intro base hbase
    obtain ⟨rel, hrel, hslashed⟩ := Path.exists_relativeTo?_file settings.exported hdirectory hname
    refine ⟨rel, hrel, ?_⟩
    have hlink := PublicLink.address_ofGuide base g.file index
    rw [← hslashed] at hlink
    rw [hbase] at hcontent
    rw [hcontent, ← hlink]
    exact link_front _ _ _ _
  · intro hnone
    have hpackage : g.file.toNamespace = .ofDirectory (GuideFile.directoryOf found) := by
      rw [hfile]
      rfl
    rw [hnone] at hcontent
    rw [hcontent, ← hpackage]
    exact package_front _ _ _

/-- The program of a guide in the directory `a`, with a public address. -/
theorem exists_exported_program_in_directory :
    ∃ content, (processFile Guide.publish
        ⟨⟨"src".toList⟩, ⟨"pages".toList⟩, ⟨"run".toList⟩, ⟨"out".toList⟩, some "http://h/".toList,
          none, []⟩
        ⟨((FileTree.empty.put [] "src".toList .directory).put ["src".toList] "a".toList
          .directory).put ["src".toList, "a".toList] "x.kt".toList (.file (.text
          "@file:URL(\"p\")\nfun main() \x7b\n@Code.Export\nf()\n\x7d\n".toList)), []⟩
        ⟨"src/a/x.kt".toList⟩).fs.read ⟨"out/a/x000.kt".toList⟩ = .ok content ∧
      "// This example is published at http://h/examples/a/x000.kt\n\n".toList <+: content := by
  have hrelative : (⟨"src/a/x.kt".toList⟩ : Path).relativeTo? ⟨"src".toList⟩ =
      some ⟨"a/x.kt".toList⟩ := by
    decide +kernel
  have hrun : (processFile Guide.publish
      ⟨⟨"src".toList⟩, ⟨"pages".toList⟩, ⟨"run".toList⟩, ⟨"out".toList⟩, some "http://h/".toList,
        none, []⟩
      ⟨((FileTree.empty.put [] "src".toList .directory).put ["src".toList] "a".toList
        .directory).put ["src".toList, "a".toList] "x.kt".toList (.file (.text
        "@file:URL(\"p\")\nfun main() \x7b\n@Code.Export\nf()\n\x7d\n".toList)), []⟩
      ⟨"src/a/x.kt".toList⟩).result =
      .ok (.generated ⟨⟨"pages/p.markdown".toList⟩, [], [⟨"out/a/x000.kt".toList⟩]⟩) := by
    decide +kernel
  obtain ⟨content, hread, hlink, -⟩ :=
    exists_exported_program hrelative (by decide) hrun 0 (by decide)
  obtain ⟨rel, hrel, hfront⟩ := hlink "http://h/".toList rfl
  have hseen : (⟨"out/a/x000.kt".toList⟩ : Path).relativeTo? ⟨"out".toList⟩ =
      some ⟨"a/x000.kt".toList⟩ := by
    decide +kernel
  obtain rfl : (⟨"a/x000.kt".toList⟩ : Path) = rel := Option.some.inj (hseen.symm.trans hrel)
  have hcomment : "// This example is published at ".toList ++ (Text.dropEndWhile (· = '/')
      "http://h/".toList ++ "/examples/".toList ++ Path.slashed ⟨"a/x000.kt".toList⟩) ++
      "\n\n".toList = "// This example is published at http://h/examples/a/x000.kt\n\n".toList := by
    decide +kernel
  rw [hcomment] at hfront
  exact ⟨content, hread, hfront⟩

end Guidebook
