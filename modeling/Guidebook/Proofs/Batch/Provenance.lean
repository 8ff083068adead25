import Guidebook.Proofs.Batch.Collisions
import Guidebook.Proofs.EntryPoint.Packages

/-!
# Who Has Written a File

Different guides can have files at one place; then the one is left that the last of them has
written. What a run leaves where a program is reported is a program of that guide, in its package,
whoever else has a program there. A program tells its guide's package, so this decides the class of
the file.

## Main results

* `Took.exists_last_write`: the last write to a place is that of one candidate.
* `Took.exists_program`: **what lies where a program is reported** is a program of the guide that
  has written it last.
-/

namespace Guidebook

/-- The candidate is the last of those taken that has a file where the path leads. -/
def LastToWrite (here : Location) (settings : Settings) (taken : List (Path × Outcome))
    (path : Path)
    (c : Path × Outcome) : Prop :=
  ∃ before after, taken = before ++ c :: after ∧
    (∃ file ∈ (Report.ofCandidate settings c.1 c.2).files,
      file.resolve here = path.resolve here) ∧
    ∀ d ∈ after, ∀ file ∈ (Report.ofCandidate settings d.1 d.2).files,
      file.resolve here ≠ path.resolve here

/-- Who has written last has been taken. -/
theorem LastToWrite.mem {here : Location} {settings : Settings} {taken : List (Path × Outcome)}
    {path : Path} {c : Path × Outcome} (h : LastToWrite here settings taken path c) :
    c ∈ taken := by
  obtain ⟨before, after, rfl, -, -⟩ := h
  simp

section Writes

variable {publisher : Publisher} {settings : Settings} {fs later : FileSystem}
  {taken : List (Path × Outcome)}

/-- The files of a candidate that has been taken are among those of the run. -/
theorem Report.mem_files_ofTaken {c : Path × Outcome} (hc : c ∈ taken) {file : Path}
    (hfile : file ∈ (Report.ofCandidate settings c.1 c.2).files) :
    file ∈ (Report.ofTaken settings taken).files := by
  obtain ⟨hpages, hrunnable, hexported, -⟩ := Report.ofTaken_lists settings taken
  rw [Report.mem_files] at hfile ⊢
  rw [hpages, hrunnable, hexported]
  simp only [List.mem_flatMap]
  exact hfile.imp (⟨c, hc, ·⟩) (.imp (⟨c, hc, ·⟩) (⟨c, hc, ·⟩))

/-- Where candidates have written nothing, none of them has a file. -/
theorem Took.ne_of_unwritten (h : Took publisher settings fs taken later) {here place : Location}
    (hnone : lastWrite? here place
      (writesOf (stepsOfRun publisher settings fs (taken.map Prod.fst))) = none)
    {d : Path × Outcome} (hd : d ∈ taken) {file : Path}
    (hfile : file ∈ (Report.ofCandidate settings d.1 d.2).files) : file.resolve here ≠ place := by
  intro hplace
  obtain ⟨w, hw, rfl⟩ :=
    List.mem_map.1 (h.perm_files.mem_iff.1 (Report.mem_files_ofTaken hd hfile))
  exact lastWrite?_eq_none_iff.1 hnone w hw hplace

/-- **The last write to a place** is that of one candidate, and those behind it have no file
there. -/
theorem Took.exists_last_write (h : Took publisher settings fs taken later) {here place : Location}
    {content : Text}
    (hlast : lastWrite? here place
      (writesOf (stepsOfRun publisher settings fs (taken.map Prod.fst))) = some content) :
    ∃ before c after mid, taken = before ++ c :: after ∧
      (processFile publisher settings mid c.1).result = .ok c.2 ∧
      lastWrite? here place (writesOf (stepsFor publisher settings mid c.1)) = some content ∧
      ∀ d ∈ after, ∀ file ∈ (Report.ofCandidate settings d.1 d.2).files,
        file.resolve here ≠ place := by
  induction h with
  | nil fs => cases hlast
  | @cons fs later path outcome taken first others ih =>
      rw [List.map_cons, stepsOfRun, writesOf_append, lastWrite?_append] at hlast
      cases hrest : lastWrite? here place (writesOf (stepsOfRun publisher settings
          (processFile publisher settings fs path).fs (taken.map Prod.fst))) with
      | some more =>
          obtain rfl : more = content := by simpa [hrest] using hlast
          obtain ⟨before, c, after, mid, rfl, hc, hwrite, hafter⟩ := ih hrest
          exact ⟨(path, outcome) :: before, c, after, mid, rfl, hc, hwrite, hafter⟩
      | none =>
          rw [hrest, Option.none_or] at hlast
          exact ⟨[], (path, outcome), taken, fs, rfl, first, hlast,
            fun d hd file hfile => others.ne_of_unwritten hrest hd hfile⟩

end Writes

/-! ### Programs -/

section Programs

variable {settings : Settings} {fs later : FileSystem} {taken : List (Path × Outcome)}
  {path : Path}

/-- The names of the directories that lead from the root of the guides to a guide. -/
def Settings.directoryNames (settings : Settings) (path : Path) : List Text :=
  match GuideFile.ofPath? settings.sources path with
  | some file => file.relativeDirectory.names
  | none => []

/-- The directories of a guide are those of its path below the root. -/
theorem Settings.directoryNames_of_ofPath? {file : GuideFile}
    (h : GuideFile.ofPath? settings.sources path = some file) :
    settings.directoryNames path = file.relativeDirectory.names := by
  rw [directoryNames, h]

namespace Generation

variable {publisher : Publisher} (g : Generation publisher settings fs path)

/-- A runnable program is a numbered program below the root for them. -/
theorem programBelow_runnable {p : Path} (h : p ∈ g.plan.outputs.runnable) :
    ProgramBelow settings.runnable p := by
  rw [g.runnable_eq, g.extension_eq] at h
  obtain ⟨index, rfl⟩ := exists_index_of_mem_programPaths h
  exact ⟨_, _, index, GuideFile.isAbsolute_directoryOf (isAbsolute_of_publishPlace? g.placed),
    Text.not_mem_capitalize g.not_mem_pageName, rfl⟩

/-- Each runnable program is that of some code, in the package of its guide. -/
theorem exists_runnable_program (g : Generation Guide.publish settings fs path) {content : Text}
    (h : content ∈ g.publication.runnable) :
    ∃ imports code, content = program g.file.toNamespace.package imports none code := by
  obtain ⟨guide, -, hpublication⟩ := Guide.publish_eq_ok_iff.1 g.published
  rw [hpublication, Guide.publication] at h
  obtain ⟨code, -, rfl⟩ := List.mem_map.1 h
  exact ⟨guide.imports, code, rfl⟩

/-- Each exported program is that of some code, in the package of its guide, with a link if there is
a public address. -/
theorem exists_exported_program_of_mem (g : Generation Guide.publish settings fs path)
    {content : Text} (h : content ∈ g.publication.exported) :
    ∃ imports index code, content = program g.file.toNamespace.package imports
      (settings.rootUrl.map fun base => (PublicLink.ofGuide base g.file).address index) code := by
  obtain ⟨index, hindex, rfl⟩ := List.getElem_of_mem h
  obtain ⟨imports, code, hcontent⟩ := g.exported_eq_program hindex
  exact ⟨imports, index, code, hcontent⟩

end Generation

/-- The candidate has a program where the path leads, and this is what lies there. -/
structure ProgramOf (settings : Settings) (here : Location) (later : FileSystem) (path : Path)
    (c : Path × Outcome) where
  file : GuideFile
  found : GuideFile.ofPath? settings.sources c.1 = some file
  imports : List Text
  link : Option Text
  code : Text
  read : later.read path = .ok (program file.toNamespace.package imports link code)
  /-- It is a runnable program without a link, or an exported one with its link, if there is a
  public address. -/
  kind : (∃ p ∈ (Report.ofCandidate settings c.1 c.2).runnable,
      p.resolve here = path.resolve here) ∧ link = none ∨
    (∃ p ∈ (Report.ofCandidate settings c.1 c.2).exported,
      p.resolve here = path.resolve here) ∧
      ∃ index, link = settings.rootUrl.map fun base => (PublicLink.ofGuide base file).address index

/-- What a guide has written last where no page lies is one of its programs. -/
theorem Generation.nonempty_programOf {source : Path}
    (g : Generation Guide.publish settings fs source)
    {here : Location} {w : Path × Text} (hw : w ∈ g.files) (hpage : w.1 ≠ g.plan.outputs.page)
    (hplace : w.1.resolve here = path.resolve here) (hread : later.read path = .ok w.2) :
    Nonempty (ProgramOf settings here later path (source, .generated g.plan.outputs)) := by
  rcases List.mem_cons.1 hw with rfl | hprograms
  · exact absurd rfl hpage
  rcases List.mem_append.1 hprograms with hrunnable | hexported
  · obtain ⟨hfile, hcontent⟩ := List.of_mem_zip hrunnable
    obtain ⟨imports, code, hprogram⟩ := g.exists_runnable_program hcontent
    exact ⟨⟨g.file, g.found, imports, none, code, by rw [hread, hprogram],
      .inl ⟨⟨w.1, hfile, hplace⟩, rfl⟩⟩⟩
  · obtain ⟨hfile, hcontent⟩ := List.of_mem_zip hexported
    obtain ⟨imports, index, code, hprogram⟩ := g.exists_exported_program_of_mem hcontent
    exact ⟨⟨g.file, g.found, imports, _, code, by rw [hread, hprogram],
      .inr ⟨⟨w.1, hfile, hplace⟩, index, rfl⟩⟩⟩

/-- **What lies where a program is reported** is a program of the guide that has written it last. -/
theorem Took.exists_program (h : Took Guide.publish settings fs taken later)
    (hpath : path ∈ (Report.ofTaken settings taken).runnable ∨
      path ∈ (Report.ofTaken settings taken).exported) :
    ∃ c, LastToWrite fs.here settings taken path c ∧
      Nonempty (ProgramOf settings fs.here later path c) := by
  obtain ⟨-, content, hlast, hread⟩ := h.account.listed path (Report.mem_files.2 (.inr hpath))
  obtain ⟨before, ⟨source, outcome⟩, after, mid, rfl, hc, hwrite, hafter⟩ :=
    h.exists_last_write hlast
  dsimp only at hc hwrite
  obtain ⟨w, hw, hplace, rfl⟩ := exists_mem_of_lastWrite? hwrite
  obtain ⟨g, rfl⟩ := exists_generation_of_mem_writesOf hc hw
  have hfile := (carriedOut_processFile hc).mem_files hw
  refine ⟨(source, .generated g.plan.outputs),
    ⟨before, after, rfl, ⟨w.1, hfile, hplace⟩, hafter⟩, ?_⟩
  rw [stepsFor_of_generation g, g.writesOf_plan] at hw
  refine g.nonempty_programOf hw (fun heq => ?_) hplace hread
  -- A page lies where no program does.
  have hpage : w.1 ∈ (Report.ofTaken settings
      (before ++ (source, .generated g.plan.outputs) :: after)).pages := by
    rw [(Report.ofTaken_lists settings _).1, heq]
    exact List.mem_flatMap.2 ⟨(source, .generated g.plan.outputs), by simp,
      List.mem_singleton.2 rfl⟩
  exact h.page_ne_program fs.here hpage hpath hplace

/-- The runnable programs of a run are numbered programs below the root for them. -/
theorem Took.programBelow_runnable (h : Took Guide.publish settings fs taken later)
    {c : Path × Outcome} (hc : c ∈ taken)
    (hpath : path ∈ (Report.ofCandidate settings c.1 c.2).runnable) :
    ProgramBelow settings.runnable path := by
  obtain ⟨mid, -, hmid⟩ := h.exists_processFile hc
  obtain ⟨g, houtcome⟩ :=
    exists_generation_of_mem_files hmid (Report.mem_files.2 (.inr (.inl hpath)))
  rw [houtcome] at hpath
  exact g.programBelow_runnable hpath

end Programs

end Guidebook
