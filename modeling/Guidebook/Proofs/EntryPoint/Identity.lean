import Guidebook.Proofs.Batch.Provenance
import Guidebook.Proofs.ItemByItem
import Mathlib.Data.List.Pairwise

/-!
# Whether Classes Identify Programs

A runnable program lies where the directive `URL` of its guide says, but its class is named after
the directory of the guide, and the file. So two programs at different places can have one class in
common: those of guides in one directory whose places have the same name, or of guides in different
directories whose names come to the same once they are joined by dots and backticks are left out. As
long as each program is left as it has been written, and no name of a directory breaks the line with
the package, this is all that can happen; the programs of one guide are told apart by their numbers.

## Main results

* `EntryPoint.ofNames_inj`: what the class of a program tells.
* `Took.ofContent_runnable`: the class of a runnable program that has not been overwritten.
* `nodup_classes_iff`: **when classes identify programs**.
-/

namespace Guidebook

namespace EntryPoint

/-! ### What classes tell -/

/-- In one directory, programs of different names have different classes. -/
theorem ofNames_injective (directory : List Text) : Function.Injective (ofNames directory) := by
  intro name other h
  exact List.append_cancel_right (List.cons.inj (List.append_cancel_left h)).2

/-- The class of a program joins `examples`, the directories without backticks and the name by
dots. -/
theorem ofNames_eq_join (directory : List Text) (name : Text) :
    ofNames directory name = Text.join ['.']
      ((Namespace.root :: directory.map (·.filter (· ≠ '`'))) ++ [name ++ "Kt".toList]) := by
  rw [Text.join_append (List.cons_ne_nil _ _) (List.cons_ne_nil _ _), ofNames]
  simp [Text.join]

/-- A class is cut at its dots into the names that it has been put together from, if these hold
neither dots nor backticks. -/
theorem splitOn_ofNames {directory : List Text} {name : Text}
    (hdirectory : ∀ n ∈ directory, '.' ∉ n ∧ '`' ∉ n) (hname : '.' ∉ name) :
    Text.splitOn '.' (ofNames directory name) =
      (Namespace.root :: directory) ++ [name ++ "Kt".toList] := by
  have hplain : directory.map (·.filter (· ≠ '`')) = directory := by
    refine (List.map_congr_left fun n hn => List.filter_eq_self.2 fun c hc => ?_).trans
      (List.map_id directory)
    exact decide_eq_true fun hbacktick => (hdirectory n hn).2 (hbacktick ▸ hc)
  rw [ofNames_eq_join, hplain]
  refine Text.splitOn_join (by simp) fun piece hpiece => ?_
  rcases List.mem_append.1 hpiece with hfront | hlast
  · rcases List.mem_cons.1 hfront with rfl | hmem
    · decide
    · exact (hdirectory piece hmem).1
  · rw [List.mem_singleton.1 hlast, List.mem_append, not_or]
    exact ⟨hname, by decide⟩

/-- **What the class of a program tells**: its name and those of its directories, if there are no
dots in them and no backticks in those of the directories. -/
theorem ofNames_inj {directory other : List Text} {name title : Text}
    (hdirectory : ∀ n ∈ directory, '.' ∉ n ∧ '`' ∉ n) (hother : ∀ n ∈ other, '.' ∉ n ∧ '`' ∉ n)
    (hname : '.' ∉ name) (htitle : '.' ∉ title) :
    ofNames directory name = ofNames other title ↔ directory = other ∧ name = title := by
  constructor
  · intro h
    have hpieces := congrArg (Text.splitOn '.') h
    rw [splitOn_ofNames hdirectory hname, splitOn_ofNames hother htitle] at hpieces
    obtain ⟨hfront, hlast⟩ := List.append_inj' hpieces rfl
    exact ⟨(List.cons.inj hfront).2, List.append_cancel_right (List.cons.inj hlast).1⟩
  · rintro ⟨rfl, rfl⟩
    rfl

example : ofNames ["a.b".toList] "P000".toList =
    ofNames ["a".toList, "b".toList] "P000".toList := by
  decide

end EntryPoint

/-! ### The classes of a guide -/

/-- The classes of the runnable programs of a candidate: named after its directory, and the
files. -/
def programClasses (settings : Settings) (c : Path × Outcome) : List Text :=
  (Report.ofCandidate settings c.1 c.2).runnable.map fun path =>
    EntryPoint.ofNames (settings.directoryNames c.1) (path.stem?.getD [])

/-- The names of the files of the runnable programs of a candidate. -/
def programFileNames (settings : Settings) (c : Path × Outcome) : List Text :=
  (Report.ofCandidate settings c.1 c.2).runnable.map fun path => path.fileName?.getD []

section Classes

variable {settings : Settings} {fs later : FileSystem} {taken : List (Path × Outcome)}
  {c d : Path × Outcome}

/-- The programs of one guide have different classes. -/
theorem Took.nodup_programClasses (h : Took Guide.publish settings fs taken later)
    (hc : c ∈ taken) :
    (programClasses settings c).Nodup := by
  obtain ⟨mid, -, hmid⟩ := h.exists_processFile hc
  rw [programClasses]
  cases houtcome : c.2 with
  | generated outputs =>
      rw [houtcome] at hmid
      obtain ⟨g, -, rfl, -⟩ := exists_generation hmid
      have hname := Text.not_mem_capitalize g.not_mem_pageName
      have hclasses : (Report.ofCandidate settings c.1 (.generated g.plan.outputs)).runnable.map
            (fun path => EntryPoint.ofNames (settings.directoryNames c.1) (path.stem?.getD [])) =
          (List.range g.publication.runnable.length).map fun index =>
            EntryPoint.ofNames (settings.directoryNames c.1)
              (Text.capitalize g.pageName ++ paddedIndex index) := by
        rw [show (Report.ofCandidate settings c.1 (.generated g.plan.outputs)).runnable =
          g.plan.outputs.runnable from rfl, g.runnable_eq, g.extension_eq, programPaths_eq,
          List.map_map]
        exact List.map_congr_left fun index _ =>
          congrArg (fun stem : Option Text => EntryPoint.ofNames _ (stem.getD []))
            (names_of_programFile _ hname index).1
      rw [hclasses]
      refine List.nodup_range.map fun i j hij => ?_
      exact paddedIndex_injective (List.append_cancel_left (EntryPoint.ofNames_injective _ hij))
  | skipped rejection => exact List.nodup_nil
  | ignored => exact List.nodup_nil

/-- Where there are no dots and backticks, two guides share a class if they lie in one directory and
have programs whose files have the same name. -/
theorem Took.disjoint_programClasses_iff (h : Took Guide.publish settings fs taken later)
    (hc : c ∈ taken) (hd : d ∈ taken)
    (hdirectories : ∀ e ∈ taken, ∀ n ∈ settings.directoryNames e.1, '.' ∉ n ∧ '`' ∉ n)
    (hstems : ∀ path ∈ (Report.ofTaken settings taken).runnable, '.' ∉ path.stem?.getD []) :
    (programClasses settings c).Disjoint (programClasses settings d) ↔
      (settings.directoryNames c.1 = settings.directoryNames d.1 →
        (programFileNames settings c).Disjoint (programFileNames settings d)) := by
  have hstem : ∀ {e}, e ∈ taken → ∀ {path},
      path ∈ (Report.ofCandidate settings e.1 e.2).runnable → '.' ∉ path.stem?.getD [] := by
    intro e he path hpath
    refine hstems path ?_
    rw [(Report.ofTaken_lists settings taken).2.1]
    exact List.mem_flatMap.2 ⟨e, he, hpath⟩
  constructor
  · intro hdisjoint hsame name hone htwo
    obtain ⟨path, hpath, rfl⟩ := List.mem_map.1 hone
    obtain ⟨other, hother, heq⟩ := List.mem_map.1 htwo
    rw [(h.programBelow_runnable hc hpath).fileName?_eq,
      (h.programBelow_runnable hd hother).fileName?_eq] at heq
    have hstems : other.stem?.getD [] = path.stem?.getD [] := List.append_cancel_right heq
    refine hdisjoint (List.mem_map_of_mem hpath) (List.mem_map.2 ⟨other, hother, ?_⟩)
    rw [hsame, hstems]
  · intro hnames name hone htwo
    obtain ⟨path, hpath, rfl⟩ := List.mem_map.1 hone
    obtain ⟨other, hother, heq⟩ := List.mem_map.1 htwo
    obtain ⟨hsame, hstems⟩ := (EntryPoint.ofNames_inj (hdirectories d hd) (hdirectories c hc)
      (hstem hd hother) (hstem hc hpath)).1 heq
    refine hnames hsame.symm (List.mem_map_of_mem hpath) (List.mem_map.2 ⟨other, hother, ?_⟩)
    rw [(h.programBelow_runnable hc hpath).fileName?_eq,
      (h.programBelow_runnable hd hother).fileName?_eq, hstems]

/-- **The class of a runnable program that has not been overwritten** is that of its guide. -/
theorem Took.ofContent_runnable (h : Took Guide.publish settings fs taken later)
    (hlines : ∀ c ∈ taken, ∀ name ∈ settings.directoryNames c.1, '\n' ∉ name)
    (hnodup : ((Report.ofTaken settings taken).runnable.map (·.resolve fs.here)).Nodup)
    (hapart : ((Report.ofTaken settings taken).runnable.map (·.resolve fs.here)).Disjoint
      ((Report.ofTaken settings taken).exported.map (·.resolve fs.here)))
    (hc : c ∈ taken) {path : Path} (hpath : path ∈ (Report.ofCandidate settings c.1 c.2).runnable) :
    EntryPoint.ofContent later settings.runnable path =
      .ok (EntryPoint.ofNames (settings.directoryNames c.1) (path.stem?.getD [])) := by
  obtain ⟨-, hrunnable, hexported, -⟩ := Report.ofTaken_lists settings taken
  have hreported : path ∈ (Report.ofTaken settings taken).runnable := by
    rw [hrunnable]
    exact List.mem_flatMap.2 ⟨c, hc, hpath⟩
  obtain ⟨d, hlast, ⟨file, hfile, imports, link, code, hread, hkind⟩⟩ :=
    h.exists_program (.inl hreported)
  rcases hkind with ⟨⟨p, hp, hplace⟩, rfl⟩ | ⟨⟨p, hp, hplace⟩, -⟩
  · have hsame : d = c := by
      rw [(flatMap_placesOf fs.here settings taken).2.1, List.nodup_flatMap] at hnodup
      have : Std.Symm (Function.onFun List.Disjoint (placesOf fs.here settings Report.runnable)) :=
        ⟨fun _ _ => List.Disjoint.symm⟩
      by_contra hne
      exact hnodup.2.forall hlast.mem hc hne (List.mem_map_of_mem hp)
        (List.mem_map.2 ⟨path, hpath, hplace.symm⟩)
    subst hsame
    have hnames := settings.directoryNames_of_ofPath? hfile
    rw [(h.programBelow_runnable hc hpath).ofContent_eq hread
      (fun name hname => hlines d hc name (hnames ▸ hname)) (by simp), hnames]
    exact congrArg Except.ok (EntryPoint.className_ofDirectory _ _)
  · refine absurd (List.mem_map.2 ⟨p, ?_, hplace⟩)
      (hapart (List.mem_map_of_mem (f := fun p : Path => p.resolve fs.here) hreported))
    rw [hexported]
    exact List.mem_flatMap.2 ⟨d, hlast.mem, hp⟩

end Classes

/-- **When classes identify programs.** Behind a run in which runnable programs do not meet each
other and are not overwritten by exported ones, and no directory of a guide has a line feed in its
name, the classes of the runnable programs are those that they have by the directories of their
guides. No two are the same exactly if no two guides share one; and where there are no dots and
backticks in the names, this is to say that no two guides in one directory have programs whose files
have the same name. -/
theorem nodup_classes_iff {settings : Settings} {fs : FileSystem} {paths : List Path}
    {report : Report}
    (h : (generate Guide.publish settings fs paths).result = .ok report)
    (hlines : ∀ path ∈ paths, ∀ name ∈ settings.directoryNames path, '\n' ∉ name)
    (hnodup : (report.runnable.map (·.resolve fs.here)).Nodup)
    (hapart : (report.runnable.map (·.resolve fs.here)).Disjoint
      (report.exported.map (·.resolve fs.here))) :
    EntryPoint.namesByContent (generate Guide.publish settings fs paths).fs settings.runnable
        report.runnable =
      .ok ((outcomesOf Guide.publish settings fs paths).flatMap (programClasses settings)) ∧
    (((outcomesOf Guide.publish settings fs paths).flatMap (programClasses settings)).Nodup ↔
      (outcomesOf Guide.publish settings fs paths).Pairwise fun c d =>
        (programClasses settings c).Disjoint (programClasses settings d)) ∧
    ((∀ path ∈ paths, ∀ name ∈ settings.directoryNames path, '.' ∉ name ∧ '`' ∉ name) →
      (∀ path ∈ report.runnable, '.' ∉ path.stem?.getD []) →
      (((outcomesOf Guide.publish settings fs paths).flatMap (programClasses settings)).Nodup ↔
        (outcomesOf Guide.publish settings fs paths).Pairwise fun c d =>
          settings.directoryNames c.1 = settings.directoryNames d.1 →
            (programFileNames settings c).Disjoint (programFileNames settings d))) := by
  obtain ⟨taken, rfl, htook, rfl⟩ := exists_took h
  rw [htook.outcomesOf_eq]
  generalize (generate Guide.publish settings fs (taken.map Prod.fst)).fs = later at htook
  have hnodup_iff : (taken.flatMap (programClasses settings)).Nodup ↔
      taken.Pairwise fun c d =>
        (programClasses settings c).Disjoint (programClasses settings d) := by
    rw [List.nodup_flatMap]
    exact and_iff_right fun c hc => htook.nodup_programClasses hc
  refine ⟨?_, hnodup_iff, fun hdirectories hstems => hnodup_iff.trans ?_⟩
  · have hprograms : ∀ path ∈ (Report.ofTaken settings taken).runnable,
        ProgramBelow settings.runnable path := by
      intro path hpath
      rw [(Report.ofTaken_lists settings taken).2.1] at hpath
      obtain ⟨c, hc, hpath⟩ := List.mem_flatMap.1 hpath
      exact htook.programBelow_runnable hc hpath
    rw [EntryPoint.namesByContent, filter_isProgram hprograms,
      (Report.ofTaken_lists settings taken).2.1]
    exact mapM_flatMap_ok fun c hc path hpath => htook.ofContent_runnable
      (fun d hd => hlines d.1 (List.mem_map_of_mem hd)) hnodup hapart hc hpath
  · exact List.Pairwise.iff_of_mem fun hc hd => htook.disjoint_programClasses_iff hc hd
      (fun e he => hdirectories e.1 (List.mem_map_of_mem he)) hstems

/-- Two guides in different directories, whose places have the same name. -/
def guidesApart : FileSystem :=
  .ofTree [["src".toList], ["src".toList, "a".toList], ["src".toList, "b".toList]]
    [(["src".toList, "a".toList], "x.kt".toList, guideAt "u/p".toList "Application".toList),
      (["src".toList, "b".toList], "y.kt".toList, guideAt "v/p".toList "Application".toList)]

/-- The classes of their programs differ, since the guides lie in different directories. -/
theorem classes_of_guidesApart :
    EntryPoint.namesByContent (generate Guide.publish .plain guidesApart
        [⟨"src/a/x.kt".toList⟩, ⟨"src/b/y.kt".toList⟩]).fs Settings.plain.runnable
        [⟨"run/u/P000.kt".toList⟩, ⟨"run/v/P000.kt".toList⟩] =
      .ok ["examples.a.P000Kt".toList, "examples.b.P000Kt".toList] ∧
    ["examples.a.P000Kt".toList, "examples.b.P000Kt".toList].Nodup := by
  obtain ⟨hclasses, -, hnames⟩ := @nodup_classes_iff .plain guidesApart
    [⟨"src/a/x.kt".toList⟩, ⟨"src/b/y.kt".toList⟩]
    { Report.empty with
      pages := [⟨"pages/u/p.markdown".toList⟩, ⟨"pages/v/p.markdown".toList⟩]
      runnable := [⟨"run/u/P000.kt".toList⟩, ⟨"run/v/P000.kt".toList⟩] }
    (by decide +kernel) (by decide +kernel) (by decide +kernel)
    (List.disjoint_iff_ne.2 (by decide +kernel))
  have hnodup := (hnames (by decide +kernel) (by decide +kernel)).2
    (by simp only [List.disjoint_iff_ne]; decide +kernel)
  have heq : (outcomesOf Guide.publish .plain guidesApart
      [⟨"src/a/x.kt".toList⟩, ⟨"src/b/y.kt".toList⟩]).flatMap (programClasses .plain) =
      ["examples.a.P000Kt".toList, "examples.b.P000Kt".toList] := by
    decide +kernel
  rw [heq] at hclasses hnodup
  exact ⟨hclasses, hnodup⟩

/-- A run over the guides that are found succeeds with programs at different paths, and two of them
have the same class. -/
def ClassesMeet (settings : Settings) (fs : FileSystem) (found : Scan) (report : Report)
    (classes : List Text) : Prop :=
  Scan.below fs settings.sources [] = .ok found ∧
    (generate Guide.publish settings fs found.files).result = .ok report ∧
    report.runnable.Nodup ∧
    EntryPoint.namesByContent (generate Guide.publish settings fs found.files).fs settings.runnable
      report.runnable = .ok classes ∧
    ¬ classes.Nodup

instance (settings : Settings) (fs : FileSystem) (found : Scan) (report : Report)
    (classes : List Text) : Decidable (ClassesMeet settings fs found report classes) :=
  inferInstanceAs (Decidable (_ ∧ _))

/-- Programs have the same class if their guides lie in one directory, or in directories that only a
dot or a line feed tells apart; or if one has been written over the other, by way of `..`, or over a
program of another guide, among the exported ones. -/
theorem classes_meet :
    ClassesMeet .plain
      (.ofTree [["src".toList]]
        [(["src".toList], "a.kt".toList, guideAt "a/p".toList "Application".toList),
          (["src".toList], "b.kt".toList, guideAt "b/p".toList "Application".toList)])
      ⟨[⟨"src/a.kt".toList⟩, ⟨"src/b.kt".toList⟩], []⟩
      { Report.empty with
        pages := [⟨"pages/a/p.markdown".toList⟩, ⟨"pages/b/p.markdown".toList⟩]
        runnable := [⟨"run/a/P000.kt".toList⟩, ⟨"run/b/P000.kt".toList⟩] }
      ["examples.P000Kt".toList, "examples.P000Kt".toList] ∧
    ClassesMeet .plain
      (.ofTree [["src".toList], ["src".toList, "a.b".toList], ["src".toList, "a".toList],
          ["src".toList, "a".toList, "b".toList]]
        [(["src".toList, "a.b".toList], "x.kt".toList, guideAt "u/p".toList "Application".toList),
          (["src".toList, "a".toList, "b".toList], "x.kt".toList,
            guideAt "v/p".toList "Application".toList)])
      ⟨[⟨"src/a/b/x.kt".toList⟩, ⟨"src/a.b/x.kt".toList⟩], []⟩
      { Report.empty with
        pages := [⟨"pages/v/p.markdown".toList⟩, ⟨"pages/u/p.markdown".toList⟩]
        runnable := [⟨"run/v/P000.kt".toList⟩, ⟨"run/u/P000.kt".toList⟩] }
      ["examples.a.b.P000Kt".toList, "examples.a.b.P000Kt".toList] ∧
    ClassesMeet .plain
      (.ofTree [["src".toList], ["src".toList, "a\nb".toList], ["src".toList, "a".toList]]
        [(["src".toList, "a\nb".toList], "x.kt".toList, guideAt "u/p".toList "Application".toList),
          (["src".toList, "a".toList], "y.kt".toList, guideAt "v/p".toList "Application".toList)])
      ⟨[⟨"src/a/y.kt".toList⟩, ⟨"src/a\nb/x.kt".toList⟩], []⟩
      { Report.empty with
        pages := [⟨"pages/v/p.markdown".toList⟩, ⟨"pages/u/p.markdown".toList⟩]
        runnable := [⟨"run/v/P000.kt".toList⟩, ⟨"run/u/P000.kt".toList⟩] }
      ["examples.a.P000Kt".toList, "examples.a.P000Kt".toList] ∧
    ClassesMeet .plain
      (.ofTree [["src".toList], ["src".toList, "c".toList], ["src".toList, "d".toList]]
        [(["src".toList, "c".toList], "x.kt".toList,
            guideAt "x/../q/p".toList "Application".toList),
          (["src".toList, "d".toList], "y.kt".toList, guideAt "q/p".toList "Application".toList)])
      ⟨[⟨"src/c/x.kt".toList⟩, ⟨"src/d/y.kt".toList⟩], []⟩
      { Report.empty with
        pages := [⟨"pages/x/../q/p.markdown".toList⟩, ⟨"pages/q/p.markdown".toList⟩]
        runnable := [⟨"run/x/../q/P000.kt".toList⟩, ⟨"run/q/P000.kt".toList⟩] }
      ["examples.d.P000Kt".toList, "examples.d.P000Kt".toList] ∧
    ClassesMeet { Settings.plain with exported := ⟨"run".toList⟩ }
      (.ofTree [["src".toList], ["src".toList, "c".toList], ["src".toList, "d".toList]]
        [(["src".toList, "c".toList], "x.kt".toList, guideAt "d/p".toList "Application".toList),
          (["src".toList, "d".toList], "P.kt".toList, guideAt "q/p".toList "Code".toList)])
      ⟨[⟨"src/c/x.kt".toList⟩, ⟨"src/d/P.kt".toList⟩], []⟩
      { Report.empty with
        pages := [⟨"pages/d/p.markdown".toList⟩, ⟨"pages/q/p.markdown".toList⟩]
        runnable := [⟨"run/d/P000.kt".toList⟩, ⟨"run/q/P000.kt".toList⟩]
        exported := [⟨"run/d/P000.kt".toList⟩] }
      ["examples.d.P000Kt".toList, "examples.d.P000Kt".toList] := by
  decide +kernel

end Guidebook
