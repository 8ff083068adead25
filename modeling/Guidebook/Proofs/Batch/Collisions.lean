import Guidebook.Proofs.Batch.Confinement

/-!
# Files That Meet

Two files of a run meet if they are written to the same place; then only the one written last is
left. A page never meets a program, since their extensions differ. Runnable and exported programs do
not meet if they lie beneath roots that lie apart. The programs of one guide differ in their
numbers. And as long as no guide has more than a thousand programs, so that their numbers have three
digits, the name of a program tells the name of its guide and its number: exported programs never
meet, and the runnable programs of two guides meet exactly if the first ones do.

What is left are the pages of guides that name the same place, and the runnable programs of guides
that name the same place but for the case of the first letter.

## Main results

* `programName_inj`: what the name of a program tells.
* `nodup_flatMap_programPlaces`: programs of different guides meet if the first ones do.
* `lastWrite?_of_nodup`: where no files meet, each is the last that is written.
* `nodup_files_iff`: **when files of a run meet**, and what is on disk if they do not.
-/

namespace Guidebook

/-! ### The names of programs -/

/-- Numbers below a thousand have three digits. -/
theorem length_paddedIndex_of_lt {index : Nat} (h : index < 1000) :
    (paddedIndex index).length = 3 := by
  have hdigits : (Text.ofNat index).length ≤ 3 :=
    (Nat.length_toDigits_le_iff (by decide) (by decide)).2 h
  rw [paddedIndex, List.length_leftpad]
  exact Nat.max_eq_left hdigits

/-- **The name of a program tells** the name of its guide and its number, if that has three
digits. -/
theorem programName_inj {name other extension : Text} {i j : Nat} (hi : i < 1000) (hj : j < 1000)
    (h : programName name extension i = programName other extension j) : name = other ∧ i = j := by
  have hfront : name ++ paddedIndex i = other ++ paddedIndex j := List.append_cancel_right h
  have hlength : (paddedIndex i).length = (paddedIndex j).length := by
    rw [length_paddedIndex_of_lt hi, length_paddedIndex_of_lt hj]
  obtain ⟨hname, hindex⟩ := List.append_inj' hfront hlength
  exact ⟨hname, paddedIndex_injective hindex⟩

example : programName "a".toList "kt".toList 1000 = programName "a1".toList "kt".toList 0 := by
  decide +kernel

/-- The places of numbered programs in a directory. -/
def programPlaces (directory : Location) (name extension : Text) (count : Nat) : List Location :=
  (List.range count).map fun index => directory ++ [programName name extension index]

/-- The paths of programs lead to the places of programs in the directory to which theirs leads. -/
theorem map_resolve_programPaths (here : Location) (directory : Path) {name extension : Text}
    (hname : '/' ∉ name) (hextension : '/' ∉ extension) (programs : List Text) :
    (programPaths directory name extension programs).map (·.resolve here) =
      programPlaces (directory.resolve here) name extension programs.length := by
  rw [programPaths_eq, List.map_map]
  exact List.map_congr_left fun index _ =>
    Path.resolve_file directory (isFileName_program hname hextension index) here

/-- The programs of one guide do not meet. -/
theorem nodup_programPlaces (directory : Location) (name extension : Text) (count : Nat) :
    (programPlaces directory name extension count).Nodup := by
  refine List.nodup_range.map fun i j h => programName_injective name extension ?_
  simpa using h

/-- The places of programs are those of the numbers below their count. -/
theorem mem_programPlaces {directory place : Location} {name extension : Text} {count : Nat} :
    place ∈ programPlaces directory name extension count ↔
      ∃ index < count, place = directory ++ [programName name extension index] := by
  simp only [programPlaces, List.mem_map, List.mem_range, eq_comm]

/-- The first of these places is that of the number 0, if there is any program. -/
theorem mem_head?_programPlaces {directory place : Location} {name extension : Text} {count : Nat} :
    place ∈ (programPlaces directory name extension count).head? ↔
      0 < count ∧ place = directory ++ [programName name extension 0] := by
  cases count with
  | zero => simp [programPlaces]
  | succ count => simp [programPlaces, List.range_succ_eq_map, eq_comm]

/-- Programs of two guides meet if the first ones do, and not otherwise. -/
theorem disjoint_programPlaces {directory place : Location} {name other extension : Text}
    {count more : Nat} (hcount : count ≤ 1000) (hmore : more ≤ 1000) :
    (programPlaces directory name extension count).Disjoint
        (programPlaces place other extension more) ↔
      ∀ a ∈ (programPlaces directory name extension count).head?,
        ∀ b ∈ (programPlaces place other extension more).head?, a ≠ b := by
  constructor
  · intro hdisjoint a ha b hb heq
    exact hdisjoint (List.mem_of_mem_head? ha) (heq ▸ List.mem_of_mem_head? hb)
  · intro hfirst x hone htwo
    obtain ⟨i, hi, rfl⟩ := mem_programPlaces.1 hone
    obtain ⟨j, hj, heq⟩ := mem_programPlaces.1 htwo
    obtain ⟨rfl, hnames⟩ := List.append_inj' heq rfl
    obtain ⟨rfl, -⟩ := programName_inj (by omega) (by omega) (List.cons.inj hnames).1
    exact hfirst _ (mem_head?_programPlaces.2 ⟨by omega, rfl⟩) _
      (mem_head?_programPlaces.2 ⟨by omega, rfl⟩) rfl

/-- **Programs of different guides meet** if the first ones do, and not otherwise. -/
theorem nodup_flatMap_programPlaces {α : Type} (extension : Text) {items : List α}
    {places : α → List Location}
    (h : ∀ a ∈ items, ∃ directory name count, count ≤ 1000 ∧
      places a = programPlaces directory name extension count) :
    (items.flatMap places).Nodup ↔ (items.filterMap fun a => (places a).head?).Nodup := by
  rw [List.nodup_flatMap, List.Nodup, List.pairwise_filterMap]
  constructor
  · rintro ⟨-, hapart⟩
    refine hapart.imp_of_mem fun {a b} ha hb hdisjoint => ?_
    obtain ⟨directory, name, count, hcount, hplaces⟩ := h a ha
    obtain ⟨place, other, more, hmore, hothers⟩ := h b hb
    change (places a).Disjoint (places b) at hdisjoint
    rw [hplaces, hothers, disjoint_programPlaces hcount hmore] at hdisjoint
    rw [hplaces, hothers]
    exact hdisjoint
  · intro hfirst
    refine ⟨fun a ha => ?_, hfirst.imp_of_mem fun {a b} ha hb hne => ?_⟩
    · obtain ⟨directory, name, count, -, hplaces⟩ := h a ha
      rw [hplaces]
      exact nodup_programPlaces _ _ _ _
    · obtain ⟨directory, name, count, hcount, hplaces⟩ := h a ha
      obtain ⟨place, other, more, hmore, hothers⟩ := h b hb
      change (places a).Disjoint (places b)
      rw [hplaces, hothers, disjoint_programPlaces hcount hmore]
      rw [hplaces, hothers] at hne
      exact hne

/-! ### Writes that do not meet -/

/-- Where no two writes meet, each is the last to its place. -/
theorem lastWrite?_of_nodup {here : Location} {writes : List (Path × Text)}
    (h : (writes.map fun w => w.1.resolve here).Nodup) {w : Path × Text} (hw : w ∈ writes) :
    lastWrite? here (w.1.resolve here) writes = some w.2 := by
  obtain ⟨content, hcontent⟩ := exists_lastWrite? here hw
  obtain ⟨other, hother, hplace, rfl⟩ := exists_mem_of_lastWrite? hcontent
  rw [hcontent, List.inj_on_of_nodup_map h hother hw hplace]

/-- Where no files meet, each can be read as it has been written. -/
theorem Performed.read_of_nodup {fs later : FileSystem} {steps : List Step}
    (h : Performed fs steps later)
    (hnodup : ((writesOf steps).map fun w => w.1.resolve fs.here).Nodup)
    {w : Path × Text} (hw : w ∈ writesOf steps) : later.read w.1 = .ok w.2 := by
  obtain ⟨content, hlast, hread⟩ := h.exists_read hw
  rw [hread, Option.some.inj (hlast.symm.trans (lastWrite?_of_nodup hnodup hw))]

/-! ### The files of a guide -/

namespace Generation

variable {publisher : Publisher} {settings : Settings} {fs : FileSystem} {path : Path}
  (g : Generation publisher settings fs path)

/-- What is turned into files has the extension `kt`. -/
theorem extension_eq : g.file.extension = "kt".toList := by
  obtain ⟨relative, -, hfile⟩ := g.file_eq
  rw [hfile]

/-- The places of the runnable programs of a guide. -/
theorem places_runnable (here : Location) :
    g.plan.outputs.runnable.map (·.resolve here) =
      programPlaces ((settings.runnable.join (g.within .runnable)).resolve here)
        (Text.capitalize g.pageName) "kt".toList g.plan.outputs.runnable.length := by
  rw [g.runnable_eq, map_resolve_programPaths here _ (Text.not_mem_capitalize g.not_mem_pageName)
    g.not_mem_extension, g.extension_eq, length_programPaths]

/-- The places of the exported programs of a guide. -/
theorem places_exported (here : Location) :
    g.plan.outputs.exported.map (·.resolve here) =
      programPlaces ((settings.exported.join (g.within .exported)).resolve here) g.file.name
        "kt".toList g.plan.outputs.exported.length := by
  rw [g.exported_eq, map_resolve_programPaths here _ g.not_mem_name g.not_mem_extension,
    g.extension_eq, length_programPaths]

end Generation

/-! ### The files of candidates -/

section Candidates

variable {publisher : Publisher} {settings : Settings} {fs later : FileSystem} {path : Path}
  {outcome : Outcome} {taken : List (Path × Outcome)}

/-- Every candidate of a run has been taken in some file system with the same working directory. -/
theorem Took.exists_processFile (h : Took publisher settings fs taken later) {c : Path × Outcome}
    (hc : c ∈ taken) :
    ∃ mid : FileSystem, mid.here = fs.here ∧
      (processFile publisher settings mid c.1).result = .ok c.2 := by
  induction h with
  | nil fs => cases hc
  | @cons fs later path outcome taken first others ih =>
      rcases List.mem_cons.1 hc with rfl | hc
      · exact ⟨fs, rfl, first⟩
      · obtain ⟨mid, hhere, hmid⟩ := ih hc
        have hcarried := carriedOut_processFile first
        refine ⟨mid, hhere.trans ?_, hmid⟩
        rw [hcarried.left]
        exact (performed_performAll hcarried.completed).change.here

/-- A page lies in some directory under a name that ends with `.markdown`. -/
theorem exists_places_page (h : (processFile publisher settings fs path).result = .ok outcome)
    (here : Location) {page : Path}
    (hpage : page ∈ (Report.ofCandidate settings path outcome).pages) :
    ∃ directory name, page.resolve here = directory ++ [name ++ ".markdown".toList] := by
  obtain ⟨g, rfl⟩ := exists_generation_of_mem_files h (Report.mem_files.2 (.inl hpage))
  obtain rfl : page = g.plan.outputs.page := List.mem_singleton.1 hpage
  rw [g.page_eq, Path.resolve_file _ g.isFileName_page]
  exact ⟨_, _, rfl⟩

/-- The runnable programs of a candidate lie in one directory under numbered names. -/
theorem exists_places_runnable (h : (processFile publisher settings fs path).result = .ok outcome)
    (here : Location) :
    ∃ directory name, (Report.ofCandidate settings path outcome).runnable.map (·.resolve here) =
      programPlaces directory name "kt".toList
        (Report.ofCandidate settings path outcome).runnable.length := by
  cases outcome with
  | generated outputs =>
      obtain ⟨g, -, rfl, -⟩ := exists_generation h
      exact ⟨(settings.runnable.join (g.within .runnable)).resolve here,
        Text.capitalize g.pageName, g.places_runnable here⟩
  | skipped rejection => exact ⟨[], [], rfl⟩
  | ignored => exact ⟨[], [], rfl⟩

/-- The exported programs of a guide lie under the names that lead to its directory, and are named
after it. -/
theorem exists_places_exported {names : List Text} (hne : names ≠ [])
    (hnames : ∀ name ∈ names, Path.IsFileName name)
    (h : (processFile publisher settings fs (settings.sources.descend names)).result = .ok outcome)
    (here : Location) :
    ∃ name, (Report.ofCandidate settings (settings.sources.descend names) outcome).exported.map
        (·.resolve here) =
        programPlaces (settings.exported.resolve here ++ names.dropLast) name "kt".toList
          (Report.ofCandidate settings (settings.sources.descend names) outcome).exported.length ∧
      ((Report.ofCandidate settings (settings.sources.descend names) outcome).exported ≠ [] →
        names = names.dropLast ++ [name ++ ".kt".toList]) := by
  cases outcome with
  | generated outputs =>
      obtain ⟨g, -, rfl, -⟩ := exists_generation h
      have hdirectory : (settings.exported.join (g.within .exported)).resolve here =
          settings.exported.resolve here ++ names.dropLast :=
        GuideFile.resolve_join_relativeDirectory hnames g.found _ here
      refine ⟨g.file.name, ?_, fun _ => ?_⟩
      · rw [← hdirectory]
        exact g.places_exported here
      · obtain ⟨front, last, rfl⟩ := (List.eq_nil_or_concat' names).resolve_left hne
        have hlast := hnames last (by simp)
        obtain ⟨relative, -, hfile⟩ := g.file_eq
        have hextension := g.isGuide
        rw [Path.extension?, Path.fileName?_descend hlast] at hextension
        rw [hfile, Path.stem?, Path.fileName?_descend hlast, List.dropLast_concat]
        exact congrArg (fun name => front ++ [name]) (Path.eq_stemOf_append hextension)
  | skipped rejection => exact ⟨[], rfl, fun habsurd => absurd rfl habsurd⟩
  | ignored => exact ⟨[], rfl, fun habsurd => absurd rfl habsurd⟩

/-- Programs are numbered, whatever their kind. -/
theorem exists_place_program (h : (processFile publisher settings fs path).result = .ok outcome)
    (here : Location) {program : Path}
    (hprogram : program ∈ (Report.ofCandidate settings path outcome).runnable ∨
      program ∈ (Report.ofCandidate settings path outcome).exported) :
    ∃ directory name index,
      program.resolve here = directory ++ [programName name "kt".toList index] := by
  obtain ⟨g, rfl⟩ := exists_generation_of_mem_files h (Report.mem_files.2 (.inr hprogram))
  rcases hprogram with hmem | hmem
  · have hplace := List.mem_map_of_mem (f := fun p : Path => p.resolve here) hmem
    obtain ⟨index, -, heq⟩ := mem_programPlaces.1 (g.places_runnable here ▸ hplace)
    exact ⟨_, _, index, heq⟩
  · have hplace := List.mem_map_of_mem (f := fun p : Path => p.resolve here) hmem
    obtain ⟨index, -, heq⟩ := mem_programPlaces.1 (g.places_exported here ▸ hplace)
    exact ⟨_, _, index, heq⟩

end Candidates

/-! ### The files of a run -/

section Runs

variable {publisher : Publisher} {settings : Settings} {fs later : FileSystem}
  {exclude : ExcludeSet} {found : Scan} {taken : List (Path × Outcome)}

/-- The places of the files that the candidates of a run have got. -/
def placesOf (here : Location) (settings : Settings) (files : Report → List Path)
    (c : Path × Outcome) : List Location :=
  (files (Report.ofCandidate settings c.1 c.2)).map (·.resolve here)

/-- The places of the files of a run are those of the files of its candidates, for each kind of
file. -/
theorem flatMap_placesOf (here : Location) (settings : Settings) (taken : List (Path × Outcome)) :
    (Report.ofTaken settings taken).pages.map (·.resolve here) =
        taken.flatMap (placesOf here settings Report.pages) ∧
      (Report.ofTaken settings taken).runnable.map (·.resolve here) =
        taken.flatMap (placesOf here settings Report.runnable) ∧
      (Report.ofTaken settings taken).exported.map (·.resolve here) =
        taken.flatMap (placesOf here settings Report.exported) := by
  obtain ⟨hpages, hrunnable, hexported, -⟩ := Report.ofTaken_lists settings taken
  rw [hpages, hrunnable, hexported, List.map_flatMap, List.map_flatMap, List.map_flatMap]
  exact ⟨rfl, rfl, rfl⟩

/-- The runnable programs of different guides meet if the first ones do, and not otherwise. -/
theorem Took.nodup_runnable_iff (h : Took publisher settings fs taken later)
    (hcount : ∀ c ∈ taken, (Report.ofCandidate settings c.1 c.2).runnable.length ≤ 1000) :
    ((Report.ofTaken settings taken).runnable.map (·.resolve fs.here)).Nodup ↔
      (taken.filterMap fun c => (placesOf fs.here settings Report.runnable c).head?).Nodup := by
  rw [(flatMap_placesOf fs.here settings taken).2.1]
  refine nodup_flatMap_programPlaces "kt".toList fun c hc => ?_
  obtain ⟨mid, -, hmid⟩ := h.exists_processFile hc
  obtain ⟨directory, name, hplaces⟩ := exists_places_runnable hmid fs.here
  exact ⟨directory, name, _, hcount c hc, hplaces⟩

/-- Where the exported programs of a guide that has been found are, and how they are called. -/
theorem Took.exists_names (h : Took publisher settings fs taken later) (hnamed : fs.WellNamed)
    (hfound : Scan.below fs settings.sources exclude = .ok found)
    (hpaths : taken.map Prod.fst = found.files) {c : Path × Outcome} (hc : c ∈ taken) :
    ∃ names name, c.1 = settings.sources.descend names ∧
      placesOf fs.here settings Report.exported c =
        programPlaces (settings.exported.resolve fs.here ++ names.dropLast) name "kt".toList
          (Report.ofCandidate settings c.1 c.2).exported.length ∧
      ((Report.ofCandidate settings c.1 c.2).exported ≠ [] →
        names = names.dropLast ++ [name ++ ".kt".toList]) := by
  obtain ⟨mid, -, hmid⟩ := h.exists_processFile hc
  obtain ⟨names, hne, hnames, hpath, -⟩ := Scan.exists_descend_of_below hnamed hfound
    (hpaths ▸ List.mem_map_of_mem hc)
  rw [hpath] at hmid
  obtain ⟨name, hplaces, hlast⟩ := exists_places_exported hne hnames hmid fs.here
  rw [placesOf, hpath]
  exact ⟨names, name, rfl, hplaces, hlast⟩

/-- **Exported programs do not meet.** Where their guide has been found tells theirs from others. -/
theorem Took.nodup_exported (h : Took publisher settings fs taken later) (hnamed : fs.WellNamed)
    (hfound : Scan.below fs settings.sources exclude = .ok found)
    (hpaths : taken.map Prod.fst = found.files)
    (hcount : ∀ c ∈ taken, (Report.ofCandidate settings c.1 c.2).exported.length ≤ 1000) :
    ((Report.ofTaken settings taken).exported.map (·.resolve fs.here)).Nodup := by
  rw [(flatMap_placesOf fs.here settings taken).2.2]
  refine (nodup_flatMap_programPlaces "kt".toList fun c hc => ?_).2 ?_
  · obtain ⟨names, name, -, hplaces, -⟩ := h.exists_names hnamed hfound hpaths hc
    exact ⟨_, name, _, hcount c hc, hplaces⟩
  · have hnodup : (taken.map Prod.fst).Nodup := hpaths ▸ Scan.nodup_files_below hnamed hfound
    rw [List.Nodup, List.pairwise_filterMap]
    refine (List.pairwise_map.1 hnodup).imp_of_mem fun {c d} hc hd hne a ha b hb heq => hne ?_
    obtain ⟨names, name, hpath, hone, hlast⟩ := h.exists_names hnamed hfound hpaths hc
    obtain ⟨others, other, hother, htwo, hends⟩ := h.exists_names hnamed hfound hpaths hd
    rw [hone] at ha
    rw [htwo] at hb
    obtain ⟨hsome, rfl⟩ := mem_head?_programPlaces.1 ha
    obtain ⟨hmore, rfl⟩ := mem_head?_programPlaces.1 hb
    -- The places tell the directories of the guides and their names, so the guides are the same.
    obtain ⟨hdirectories, hprograms⟩ := List.append_inj' heq rfl
    obtain ⟨hname, -⟩ := programName_inj (by decide) (by decide) (List.cons.inj hprograms).1
    have hwhole := hlast (List.ne_nil_of_length_pos hsome)
    rw [List.append_cancel_left hdirectories, hname,
      ← hends (List.ne_nil_of_length_pos hmore)] at hwhole
    rw [hpath, hother, hwhole]

/-- Exported programs lie under their root. -/
theorem Took.prefix_exported (h : Took publisher settings fs taken later) (hnamed : fs.WellNamed)
    (hfound : Scan.below fs settings.sources exclude = .ok found)
    (hpaths : taken.map Prod.fst = found.files) {program : Path}
    (hprogram : program ∈ (Report.ofTaken settings taken).exported) :
    settings.exported.resolve fs.here <+: program.resolve fs.here := by
  have hmem := List.mem_map_of_mem (f := fun p : Path => p.resolve fs.here) hprogram
  rw [(flatMap_placesOf fs.here settings taken).2.2] at hmem
  obtain ⟨c, hc, hplace⟩ := List.mem_flatMap.1 hmem
  obtain ⟨names, name, -, hplaces, -⟩ := h.exists_names hnamed hfound hpaths hc
  rw [hplaces] at hplace
  obtain ⟨index, -, heq⟩ := mem_programPlaces.1 hplace
  rw [heq, List.append_assoc]
  exact List.prefix_append _ _

/-- A page and a program lie in different places. -/
theorem Took.page_ne_program (h : Took publisher settings fs taken later) (here : Location)
    {page program : Path} (hpage : page ∈ (Report.ofTaken settings taken).pages)
    (hprogram : program ∈ (Report.ofTaken settings taken).runnable ∨
      program ∈ (Report.ofTaken settings taken).exported) :
    page.resolve here ≠ program.resolve here := by
  obtain ⟨hpages, hrunnable, hexported, -⟩ := Report.ofTaken_lists settings taken
  rw [hpages] at hpage
  rw [hrunnable, hexported] at hprogram
  obtain ⟨c, hc, hpage⟩ := List.mem_flatMap.1 hpage
  obtain ⟨mid, -, hmid⟩ := h.exists_processFile hc
  obtain ⟨place, title, hplace⟩ := exists_places_page hmid here hpage
  obtain ⟨d, hd, hprogram⟩ : ∃ d ∈ taken, program ∈ (Report.ofCandidate settings d.1 d.2).runnable ∨
      program ∈ (Report.ofCandidate settings d.1 d.2).exported := by
    rw [List.mem_flatMap, List.mem_flatMap] at hprogram
    rcases hprogram with ⟨d, hd, hmem⟩ | ⟨d, hd, hmem⟩
    · exact ⟨d, hd, .inl hmem⟩
    · exact ⟨d, hd, .inr hmem⟩
  obtain ⟨mid, -, hmid⟩ := h.exists_processFile hd
  obtain ⟨directory, name, index, hprogram⟩ := exists_place_program hmid here hprogram
  rw [hplace, hprogram]
  intro heq
  -- The one ends with an `n`, the other with a `t`.
  obtain ⟨-, hnames⟩ := List.append_inj' heq rfl
  have hlast := congrArg List.getLast? (List.cons.inj hnames).1
  rw [programName, List.getLast?_append_of_ne_nil _ (by decide),
    List.getLast?_append_of_ne_nil _ (by decide)] at hlast
  exact absurd hlast (by decide)

/-- **No page meets a program**, since the one ends with `.markdown` and the other with `.kt`. -/
theorem Took.disjoint_pages (h : Took publisher settings fs taken later) (here : Location) :
    ((Report.ofTaken settings taken).pages.map (·.resolve here)).Disjoint
      ((Report.ofTaken settings taken).runnable.map (·.resolve here) ++
        (Report.ofTaken settings taken).exported.map (·.resolve here)) := by
  rw [← List.map_append]
  intro place hpages hprograms
  obtain ⟨page, hpage, rfl⟩ := List.mem_map.1 hpages
  obtain ⟨program, hprogram, heq⟩ := List.mem_map.1 hprograms
  exact h.page_ne_program here hpage (List.mem_append.1 hprogram) heq.symm

/-- Runnable programs that lie beneath their root do not meet exported ones. -/
theorem Took.disjoint_programs (h : Took publisher settings fs taken later)
    (hnamed : fs.WellNamed) (hfound : Scan.below fs settings.sources exclude = .ok found)
    (hpaths : taken.map Prod.fst = found.files)
    (hapart : ¬ settings.runnable.resolve fs.here <+: settings.exported.resolve fs.here ∧
      ¬ settings.exported.resolve fs.here <+: settings.runnable.resolve fs.here)
    (hbeneath : ∀ program ∈ (Report.ofTaken settings taken).runnable,
      Beneath fs.here settings.runnable program) :
    ((Report.ofTaken settings taken).runnable.map (·.resolve fs.here)).Disjoint
      ((Report.ofTaken settings taken).exported.map (·.resolve fs.here)) := by
  intro place hrunnable hexported
  obtain ⟨program, hprogram, rfl⟩ := List.mem_map.1 hrunnable
  obtain ⟨other, hother, heq⟩ := List.mem_map.1 hexported
  have hroot := h.prefix_exported hnamed hfound hpaths hother
  rcases List.prefix_or_prefix_of_prefix (hbeneath program hprogram).1 (heq ▸ hroot) with
    hbelow | hbelow
  · exact hapart.1 hbelow
  · exact hapart.2 hbelow

/-- Where the files that a report names do not meet, each is there with what has been written. -/
theorem Account.read_of_nodup {paths : List Path} {report : Report}
    (h : Account publisher settings fs paths later report)
    (hnodup : (report.files.map (·.resolve fs.here)).Nodup) {w : Path × Text}
    (hw : w ∈ writesOf (stepsOfRun publisher settings fs paths)) : later.read w.1 = .ok w.2 := by
  obtain ⟨hdone, hfs⟩ := h.performed
  have hperformed := performed_performAll hdone
  rw [hfs] at hperformed
  have hwrites : ((writesOf (stepsOfRun publisher settings fs paths)).map
      fun w => w.1.resolve fs.here).Nodup := by
    have hplaces := (h.named.map fun path => path.resolve fs.here).nodup_iff.1 hnodup
    rwa [List.map_map] at hplaces
  exact hperformed.read_of_nodup hwrites hw

end Runs

/-- **When files of a run meet.** Over the guides that have been found, no two files meet if no two
of the same kind do, and no runnable program an exported one; and that does not happen if the roots
for them lie apart, and the runnable programs beneath theirs. Exported programs do not meet, as long
as no guide has more than a thousand of them; and neither do runnable programs, unless the first of
two guides do. Where no files meet, each of them is there in the end, with what has been written for
it. -/
theorem nodup_files_iff {publisher : Publisher} {settings : Settings} {fs : FileSystem}
    {exclude : ExcludeSet} {found : Scan} {report : Report} (hnamed : fs.WellNamed)
    (hfound : Scan.below fs settings.sources exclude = .ok found)
    (h : (generate publisher settings fs found.files).result = .ok report) :
    ((report.files.map (·.resolve fs.here)).Nodup ↔
      (report.pages.map (·.resolve fs.here)).Nodup ∧
        (report.runnable.map (·.resolve fs.here)).Nodup ∧
        (report.exported.map (·.resolve fs.here)).Nodup ∧
        (report.runnable.map (·.resolve fs.here)).Disjoint
          (report.exported.map (·.resolve fs.here))) ∧
    (¬ settings.runnable.resolve fs.here <+: settings.exported.resolve fs.here ∧
        ¬ settings.exported.resolve fs.here <+: settings.runnable.resolve fs.here →
      (∀ program ∈ report.runnable, Beneath fs.here settings.runnable program) →
      (report.runnable.map (·.resolve fs.here)).Disjoint
        (report.exported.map (·.resolve fs.here))) ∧
    ((∀ c ∈ outcomesOf publisher settings fs found.files,
        (Report.ofCandidate settings c.1 c.2).exported.length ≤ 1000) →
      (report.exported.map (·.resolve fs.here)).Nodup) ∧
    ((∀ c ∈ outcomesOf publisher settings fs found.files,
        (Report.ofCandidate settings c.1 c.2).runnable.length ≤ 1000) →
      ((report.runnable.map (·.resolve fs.here)).Nodup ↔
        ((outcomesOf publisher settings fs found.files).filterMap fun c =>
          (placesOf fs.here settings Report.runnable c).head?).Nodup)) ∧
    ((report.files.map (·.resolve fs.here)).Nodup →
      report.files.Perm
          ((writesOf (stepsOfRun publisher settings fs found.files)).map Prod.fst) ∧
        ∀ w ∈ writesOf (stepsOfRun publisher settings fs found.files),
          (generate publisher settings fs found.files).fs.read w.1 = .ok w.2) := by
  obtain ⟨taken, hpaths, htook, rfl⟩ := exists_took h
  have haccount := htook.account
  rw [hpaths] at haccount
  have houtcomes : outcomesOf publisher settings fs found.files = taken := by
    rw [← hpaths, htook.outcomesOf_eq]
  rw [houtcomes]
  refine ⟨?_, htook.disjoint_programs hnamed hfound hpaths,
    htook.nodup_exported hnamed hfound hpaths, htook.nodup_runnable_iff,
    fun hnodup => ⟨haccount.named, fun w hw => haccount.read_of_nodup hnodup hw⟩⟩
  rw [Report.files, List.append_assoc, List.map_append, List.map_append, List.nodup_append',
    List.nodup_append']
  simp only [htook.disjoint_pages fs.here, and_true]

/-- Guides that name different places keep what is written for them. -/
theorem read_files_of_different_places :
    ([(⟨"pages/p.markdown".toList⟩ : Path), ⟨"pages/q/r.markdown".toList⟩, ⟨"run/P000.kt".toList⟩,
        ⟨"run/q/R000.kt".toList⟩, ⟨"out/a000.kt".toList⟩, ⟨"out/b000.kt".toList⟩].map
          (·.resolve [])).Nodup ∧
      (generate Guide.publish .plain
        (.ofGuides [("a.kt".toList, "p".toList), ("b.kt".toList, "q/r".toList)])
        [⟨"src/a.kt".toList⟩, ⟨"src/b.kt".toList⟩]).fs.read ⟨"run/P000.kt".toList⟩ =
          .ok programOfGuide := by
  have hfiles := @nodup_files_iff Guide.publish .plain
    (.ofGuides [("a.kt".toList, "p".toList), ("b.kt".toList, "q/r".toList)]) []
    ⟨[⟨"src/a.kt".toList⟩, ⟨"src/b.kt".toList⟩], []⟩
    { Report.empty with
      pages := [⟨"pages/p.markdown".toList⟩, ⟨"pages/q/r.markdown".toList⟩]
      runnable := [⟨"run/P000.kt".toList⟩, ⟨"run/q/R000.kt".toList⟩]
      exported := [⟨"out/a000.kt".toList⟩, ⟨"out/b000.kt".toList⟩] }
    (by decide +kernel) (by decide +kernel) (by decide +kernel)
  have hapart := hfiles.2.1 (by decide +kernel) (by decide +kernel)
  have hexported := hfiles.2.2.1 (by decide +kernel)
  have hrunnable := (hfiles.2.2.2.1 (by decide +kernel)).2 (by decide +kernel)
  have hnodup := hfiles.1.2 ⟨by decide +kernel, hrunnable, hexported, hapart⟩
  exact ⟨hnodup,
    (hfiles.2.2.2.2 hnodup).2 (⟨"run/P000.kt".toList⟩, programOfGuide) (by decide +kernel)⟩

/-- However far apart the roots lie, of two guides that name the same page, only the page of one is
left; and two guides whose pages differ in the case of the first letter have the same runnable
programs. -/
theorem files_meet :
    ([Settings.plain.pages, Settings.plain.runnable, Settings.plain.exported].Pairwise fun a b =>
      ¬ a.resolve [] <+: b.resolve [] ∧ ¬ b.resolve [] <+: a.resolve []) ∧
    (Scan.below .sharedPage Settings.plain.sources [] = .ok ⟨candidatesOfSharedPage, []⟩ ∧
      (generate Guide.publish .plain .sharedPage candidatesOfSharedPage).result =
        .ok reportOfSharedPage ∧
      ¬ (reportOfSharedPage.files.map (·.resolve [])).Nodup ∧
      ∃ w ∈ writesOf (stepsOfRun Guide.publish .plain .sharedPage candidatesOfSharedPage),
        (generate Guide.publish .plain .sharedPage candidatesOfSharedPage).fs.read w.1 ≠ .ok w.2) ∧
    (generate Guide.publish .plain
        (.ofGuides [("a.kt".toList, "p".toList), ("b.kt".toList, "P".toList)])
        [⟨"src/a.kt".toList⟩, ⟨"src/b.kt".toList⟩]).result =
      .ok { Report.empty with
        pages := [⟨"pages/p.markdown".toList⟩, ⟨"pages/P.markdown".toList⟩]
        runnable := [⟨"run/P000.kt".toList⟩, ⟨"run/P000.kt".toList⟩]
        exported := [⟨"out/a000.kt".toList⟩, ⟨"out/b000.kt".toList⟩] } := by
  decide +kernel

end Guidebook
