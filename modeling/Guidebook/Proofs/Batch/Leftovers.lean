import Guidebook.Proofs.Batch.Elsewhere
import Guidebook.Proofs.Scan.Agreement

/-!
# What Earlier Runs Have Left

A run removes nothing. So two runs over the same guides, in file systems that differ in the files
beneath the roots of the outputs, find the same candidates, report the same, and write the same; but
where they write nothing, what has been left there before stays, and with it the difference. The
outputs are the same in the end exactly if what is left is, and so are then the classes of programs.

## Main results

* `Performed.wellNamed`: steps give files and directories proper names.
* `FileSystem.SameBut.performed`: **the same steps** leave a difference only where they write
  nothing.
* `Took.same`: **candidates that are the same** have the same outcomes.
* `generate_over_leftovers`: **runs over what earlier runs have left**.
-/

namespace Guidebook

/-! ### Names -/

/-- A walk by proper names leads, from a place with a proper path, to one. -/
theorem Location.isFileName_of_mem_walk {moves : List Component} {place : Location}
    (hmoves : ∀ name, .name name ∈ moves → Path.IsFileName name)
    (hplace : ∀ name ∈ place, Path.IsFileName name) :
    ∀ name ∈ walk place moves, Path.IsFileName name := by
  induction moves generalizing place with
  | nil => exact hplace
  | cons component moves ih =>
      refine ih (fun name hname => hmoves name (List.mem_cons_of_mem _ hname)) ?_
      cases component with
      | root => simp [move]
      | here => exact hplace
      | up => exact fun name hname => hplace name (List.dropLast_subset _ hname)
      | name n =>
          intro name hname
          rcases List.mem_append.1 hname with hold | hnew
          · exact hplace name hold
          · obtain rfl := List.mem_singleton.1 hnew
            exact hmoves name List.mem_cons_self

/-- Paths lead over places with proper names. -/
theorem Path.isFileName_of_mem_walk {p : Path} {here : Location} {front : List Component}
    (hfront : front <+: p.moves) (hhere : ∀ name ∈ here, IsFileName name) :
    ∀ name ∈ Location.walk (p.origin here) front, IsFileName name := by
  refine Location.isFileName_of_mem_walk (fun name hname => ?_) ?_
  · exact isFileName_of_mem_spoken (fun s hs => Text.not_mem_of_mem_splitOn hs)
      (hfront.subset hname)
  · rw [origin]
    split
    · simp
    · exact hhere

section Steps

variable {spared : Location → Prop} {fs other later after : FileSystem} {steps : List Step}

/-- **Steps give proper names** to files and directories. -/
theorem Performed.wellNamed (h : Performed fs steps later) (hnamed : fs.WellNamed) :
    later.WellNamed where
  here := h.change.here ▸ hnamed.here
  tree := by
    intro place hplace
    cases hwrite : lastWrite? fs.here place (writesOf steps) with
    | some content =>
        obtain ⟨w, -, rfl, -⟩ := exists_mem_of_lastWrite? hwrite
        exact Path.isFileName_of_mem_walk List.prefix_rfl hnamed.here
    | none =>
        rcases h.change.other place hwrite with hsame | ⟨-, -, hway⟩
        · exact hnamed.tree place (hsame ▸ hplace)
        · obtain ⟨directory, -, hway⟩ := List.mem_flatMap.1 hway
          obtain ⟨-, front, hfront, rfl⟩ := Path.mem_way_iff.1 hway
          exact Path.isFileName_of_mem_walk hfront hnamed.here

/-- **The same steps** leave a difference only where they write nothing. -/
theorem FileSystem.SameBut.performed (hsame : fs.SameBut spared other)
    (h : Performed fs steps later) (hother : Performed other steps after) :
    later.SameBut (fun place => spared place ∧ lastWrite? fs.here place (writesOf steps) = none)
      after where
  here := by rw [hother.change.here, h.change.here, hsame.here]
  directory := by
    intro place
    rw [h.entryAt?_eq, hother.entryAt?_eq, hsame.here]
    split
    · exact Iff.rfl
    · split
      · exact Iff.rfl
      · exact hsame.directory place
  same := by
    intro place hplace
    rw [h.entryAt?_eq, hother.entryAt?_eq, hsame.here]
    split
    · rfl
    · next hwrite => rw [hsame.same place fun hspared => hplace ⟨hspared, hwrite⟩]

end Steps

/-! ### Runs -/

section Runs

variable {publisher : Publisher} {settings : Settings} {spared : Location → Prop}
  {fs other later after : FileSystem} {taken there : List (Path × Outcome)}

/-- **Candidates that are the same** in both file systems have the same steps and outcomes. -/
theorem Took.same (h : Took publisher settings fs taken later)
    (hother : Took publisher settings other there after)
    (hpaths : there.map Prod.fst = taken.map Prod.fst) (hsame : fs.SameBut spared other)
    (hspared : ∀ path ∈ taken.map Prod.fst, ¬ spared (path.resolve fs.here)) :
    there = taken ∧ stepsOfRun publisher settings other (taken.map Prod.fst) =
      stepsOfRun publisher settings fs (taken.map Prod.fst) := by
  induction h generalizing other there with
  | nil fs => exact ⟨List.map_eq_nil_iff.1 hpaths, rfl⟩
  | @cons fs later path outcome taken first others ih =>
      cases hother with
      | nil => cases hpaths
      | @cons _ _ path' outcome' there first' others' =>
          obtain ⟨rfl, hrest⟩ := List.cons.inj hpaths
          have hread : ∀ t, fs.read path' = .ok t → other.read path' = .ok t := by
            intro t ht
            obtain ⟨place, hlocate, -⟩ := FileSystem.read_ok_iff.1 ht
            rw [hsame.read_eq (hsame.same _ (hspared _ List.mem_cons_self)) hlocate, ht]
          have helsewhere := processFile_elsewhere first hread
          obtain rfl := helsewhere.outcome_eq first'
          have hfirst := carriedOut_processFile first
          have hperformed := performed_performAll hfirst.completed
          have hfirst' := carriedOut_processFile first'
          have hperformed' := performed_performAll hfirst'.completed
          rw [← hfirst.left] at hperformed
          rw [← hfirst'.left, helsewhere.steps] at hperformed'
          obtain ⟨rfl, hsteps⟩ := ih others' hrest
            ((hsame.performed hperformed hperformed').mono fun _ hplace => hplace.1)
            fun other hother => by
              rw [hperformed.change.here]
              exact hspared other (List.mem_cons_of_mem _ hother)
          refine ⟨rfl, ?_⟩
          simp only [List.map_cons, stepsOfRun, helsewhere.steps, hsteps]

/-- Candidates that are the same in both file systems have the same steps carried out. -/
theorem Took.performed_same (h : Took publisher settings fs taken later)
    (hother : Took publisher settings other there after)
    (hpaths : there.map Prod.fst = taken.map Prod.fst) (hsame : fs.SameBut spared other)
    (hspared : ∀ path ∈ taken.map Prod.fst, ¬ spared (path.resolve fs.here)) :
    there = taken ∧
      Performed fs (stepsOfRun publisher settings fs (taken.map Prod.fst)) later ∧
      Performed other (stepsOfRun publisher settings fs (taken.map Prod.fst)) after := by
  obtain ⟨rfl, hsteps⟩ := h.same hother hpaths hsame hspared
  exact ⟨rfl, h.performed, hsteps ▸ hother.performed⟩

/-- **Runs over the same candidates**, if both succeed, report the same, and leave no difference but
where there has been one. -/
theorem generate_same {paths : List Path} {report reportThere : Report}
    (h : (generate publisher settings fs paths).result = .ok report)
    (hother : (generate publisher settings other paths).result = .ok reportThere)
    (hsame : fs.SameBut spared other)
    (hspared : ∀ path ∈ paths, ¬ spared (path.resolve fs.here)) :
    reportThere = report ∧ (generate publisher settings fs paths).fs.SameBut spared
      (generate publisher settings other paths).fs := by
  obtain ⟨taken, rfl, htook, rfl⟩ := exists_took h
  obtain ⟨there, hpaths, htookThere, rfl⟩ := exists_took hother
  obtain ⟨rfl, hperformed, hperformedThere⟩ :=
    htook.performed_same htookThere hpaths hsame hspared
  exact ⟨rfl, (hsame.performed hperformed hperformedThere).mono fun _ hplace => hplace.1⟩

end Runs

/-! ### Leftovers -/

/-- The roots of the outputs. -/
def Settings.roots (settings : Settings) : List Path :=
  [settings.pages, settings.runnable, settings.exported]

/-- The place lies beneath one of the roots of the outputs. -/
def Settings.Holds (settings : Settings) (here place : Location) : Prop :=
  ∃ root ∈ settings.roots, root.resolve here <+: place ∧ place ≠ root.resolve here

/-- What has become of two file systems, that differ in what earlier runs have left, through runs
that report the same files. -/
structure Regenerated (settings : Settings) (fs other later after : FileSystem)
    (report : Report) : Prop where
  /-- Each file that is reported holds the same in both. -/
  written : ∀ path ∈ report.files, ∃ content,
    later.read path = .ok content ∧ after.read path = .ok content
  /-- Other files stay what they are, and there are no others but those from before. -/
  left : ∀ place, (∀ path ∈ report.files, path.resolve fs.here ≠ place) → ∀ content,
    (later.tree.entryAt? place = some (.file content) ↔
        fs.tree.entryAt? place = some (.file content)) ∧
      (after.tree.entryAt? place = some (.file content) ↔
        other.tree.entryAt? place = some (.file content))
  /-- Where no outputs lie, everything is the same. -/
  elsewhere : ∀ place, ¬ settings.Holds fs.here place →
    after.tree.entryAt? place = later.tree.entryAt? place
  /-- The outputs are the same if and only if the files were that are not reported. -/
  outputs : (∀ place, settings.Holds fs.here place →
      after.tree.entryAt? place = later.tree.entryAt? place) ↔
    ∀ place, settings.Holds fs.here place →
      (∀ path ∈ report.files, path.resolve fs.here ≠ place) →
        other.tree.entryAt? place = fs.tree.entryAt? place
  /-- If those were the same that lie where runnable programs go, so are the classes of programs. -/
  classes : (∀ place, settings.runnable.resolve fs.here <+: place →
      (∀ path ∈ report.files, path.resolve fs.here ≠ place) →
        other.tree.entryAt? place = fs.tree.entryAt? place) →
    ∀ root directory, root.join directory = settings.runnable → ∀ asJson,
      Command.runClassNames after root (some directory) asJson =
        { Command.runClassNames later root (some directory) asJson with fs := after }

section Leftovers

variable {settings : Settings} {fs other later after : FileSystem} {steps : List Step}
  {report : Report}

/-- Places where steps write nothing were the same before if they are the same behind the steps. -/
theorem FileSystem.SameBut.eq_before {spared : Location → Prop} (hsame : fs.SameBut spared other)
    (h : Performed fs steps later) (hother : Performed other steps after) {place : Location}
    (hwrite : lastWrite? fs.here place (writesOf steps) = none)
    (hplace : after.tree.entryAt? place = later.tree.entryAt? place) :
    other.tree.entryAt? place = fs.tree.entryAt? place := by
  have hwrite' : lastWrite? other.here place (writesOf steps) = none := by rw [hsame.here, hwrite]
  by_cases hdirectory : fs.tree.entryAt? place = some .directory
  · rw [hdirectory, (hsame.directory place).2 hdirectory]
  · -- There is a file in both, or nothing.
    have hdirectory' := (hsame.directory place).not.2 hdirectory
    refine Option.ext fun entry => ?_
    cases entry with
    | directory => exact iff_of_false hdirectory' hdirectory
    | file content => rw [← h.change.file_iff hwrite, ← hother.change.file_iff hwrite', hplace]

/-- What the same steps do in two file systems that differ in files beneath the roots of the
outputs. -/
theorem regenerated_of_performed (hnamed : fs.WellNamed) (hnames : other.WellNamed)
    (hsame : fs.SameBut (settings.Holds fs.here) other) (h : Performed fs steps later)
    (hother : Performed other steps after)
    (hfiles : report.files.Perm ((writesOf steps).map Prod.fst)) :
    Regenerated settings fs other later after report := by
  have hafter := hsame.performed h hother
  have hunwritten : ∀ {place}, (∀ path ∈ report.files, path.resolve fs.here ≠ place) ↔
      lastWrite? fs.here place (writesOf steps) = none := by
    intro place
    rw [lastWrite?_eq_none_iff]
    simp only [hfiles.mem_iff, List.mem_map, forall_exists_index, and_imp, forall_apply_eq_imp_iff₂]
  have hagain : ∀ {place}, ((∀ path ∈ report.files, path.resolve fs.here ≠ place) →
      other.tree.entryAt? place = fs.tree.entryAt? place) →
      after.tree.entryAt? place = later.tree.entryAt? place := by
    intro place hplace
    rw [h.entryAt?_eq, hother.entryAt?_eq, hsame.here]
    split
    · rfl
    · next hwrite => rw [hplace (hunwritten.2 hwrite)]
  exact {
    written := by
      intro path hpath
      obtain ⟨w, hw, rfl⟩ := List.mem_map.1 (hfiles.mem_iff.1 hpath)
      obtain ⟨content, hlast, hread⟩ := h.exists_read hw
      obtain ⟨content', hlast', hread'⟩ := hother.exists_read hw
      rw [hsame.here, hlast] at hlast'
      obtain rfl := Option.some.inj hlast'
      exact ⟨content, hread, hread'⟩
    left := by
      intro place hplace content
      have hwrite := hunwritten.1 hplace
      have hwrite' : lastWrite? other.here place (writesOf steps) = none := by
        rw [hsame.here, hwrite]
      exact ⟨h.change.file_iff hwrite, hother.change.file_iff hwrite'⟩
    elsewhere := fun place hplace => hafter.same place fun hspared => hplace hspared.1
    outputs :=
      ⟨fun hall place hholds hplace =>
        hsame.eq_before h hother (hunwritten.1 hplace) (hall place hholds),
        fun hall place hholds => hagain (hall place hholds)⟩
    classes := by
      intro hall root directory hroot asJson
      refine Command.runClassNames_congr (h.wellNamed hnamed) (hother.wellNamed hnames) hafter ?_ _
      intro place hplace
      rw [hroot, h.change.here] at hplace
      exact hagain (hall place hplace) }

end Leftovers

/-- **Runs over what earlier runs have left.** In two file systems that are the same but for files
beneath the roots of the outputs, which lie apart from the root of the guides, a run over the guides
finds the same candidates. If it succeeds in both, it reports the same, and writes the same; nothing
else changes but that directories are made. -/
theorem generate_over_leftovers {publisher : Publisher} {settings : Settings}
    {fs other : FileSystem} {exclude : ExcludeSet} {found there : Scan}
    {report reportThere : Report}
    (hnamed : fs.WellNamed) (hnames : other.WellNamed)
    (hsame : fs.SameBut (settings.Holds fs.here) other)
    (hapart : ∀ root ∈ settings.roots,
      ¬ root.resolve fs.here <+: settings.sources.resolve fs.here ∧
        ¬ settings.sources.resolve fs.here <+: root.resolve fs.here)
    (hfound : Scan.below fs settings.sources exclude = .ok found)
    (hthere : Scan.below other settings.sources exclude = .ok there)
    (h : (generate publisher settings fs found.files).result = .ok report)
    (hother : (generate publisher settings other there.files).result = .ok reportThere) :
    there.files = found.files ∧ reportThere = report ∧
      Regenerated settings fs other (generate publisher settings fs found.files).fs
        (generate publisher settings other there.files).fs report := by
  have hsources : ∀ {place}, settings.sources.resolve fs.here <+: place →
      ¬ settings.Holds fs.here place := by
    rintro place hbelow ⟨root, hroot, hholds, -⟩
    rcases List.prefix_or_prefix_of_prefix hholds hbelow with habsurd | habsurd
    · exact (hapart root hroot).1 habsurd
    · exact (hapart root hroot).2 habsurd
  have hfiles : there.files = found.files :=
    Scan.files_below_congr hnamed hnames hsame (fun place hplace => hsame.same place
      (hsources hplace)) hfound hthere
  rw [hfiles] at hother ⊢
  obtain ⟨taken, hpaths, htook, rfl⟩ := exists_took h
  obtain ⟨takenThere, hpathsThere, htookThere, rfl⟩ := exists_took hother
  obtain ⟨rfl, hperformed, hperformedThere⟩ := htook.performed_same htookThere
    (hpathsThere.trans hpaths.symm) hsame fun path hpath => hsources
      (Scan.prefix_of_below hnamed hfound (hpaths ▸ hpath))
  exact ⟨rfl, rfl, regenerated_of_performed hnamed hnames hsame hperformed hperformedThere
    htook.perm_files⟩

/-! ### A program that has been left -/

/-- Whether file systems are the same but for some places can be told from their tables. -/
theorem FileSystem.sameBut_iff {spared : Location → Prop} {fs other : FileSystem} :
    fs.SameBut spared other ↔ other.here = fs.here ∧
      ∀ place ∈ fs.tree.entries.keys ++ other.tree.entries.keys,
        (other.tree.entryAt? place = some .directory ↔
          fs.tree.entryAt? place = some .directory) ∧
        (¬ spared place → other.tree.entryAt? place = fs.tree.entryAt? place) := by
  constructor
  · intro h
    exact ⟨h.here, fun place _ => ⟨h.directory place, h.same place⟩⟩
  · rintro ⟨hhere, htables⟩
    have hothers : ∀ place, place ∉ fs.tree.entries.keys ++ other.tree.entries.keys →
        other.tree.entryAt? place = fs.tree.entryAt? place := by
      intro place hplace
      rw [List.mem_append, not_or, Table.mem_keys_iff, Table.mem_keys_iff,
        Option.not_isSome_iff_eq_none, Option.not_isSome_iff_eq_none] at hplace
      rw [FileTree.entryAt?, FileTree.entryAt?, hplace.1, hplace.2]
    refine ⟨hhere, fun place => ?_, fun place hspared => ?_⟩
    · by_cases hplace : place ∈ fs.tree.entries.keys ++ other.tree.entries.keys
      · exact (htables place hplace).1
      · rw [hothers place hplace]
    · by_cases hplace : place ∈ fs.tree.entries.keys ++ other.tree.entries.keys
      · exact (htables place hplace).2 hspared
      · exact hothers place hplace

instance (settings : Settings) (here : Location) : DecidablePred (settings.Holds here) :=
  fun _ => inferInstanceAs (Decidable (∃ root ∈ settings.roots, _))

instance (spared : Location → Prop) [DecidablePred spared] (fs other : FileSystem) :
    Decidable (fs.SameBut spared other) :=
  decidable_of_iff _ FileSystem.sameBut_iff.symm

/-- A guide, and programs of the given names and contents where the runnable ones go. -/
def FileSystem.withPrograms (programs : List (Text × Text)) : FileSystem where
  tree := programs.foldl (fun tree program =>
      tree.put ["run".toList] program.1 (.file (.text program.2)))
    ((FileSystem.ofGuides [("a.kt".toList, "p".toList)]).tree.put [] "run".toList .directory)
  here := []

/-- What a run over the guide reports. -/
def reportOfGuide : Report where
  pages := [⟨"pages/p.markdown".toList⟩]
  runnable := [⟨"run/P000.kt".toList⟩]
  exported := [⟨"out/a000.kt".toList⟩]
  skipped := []
  ignored := 0

/-- The program of another guide stays beside the one that is written. -/
theorem generate_over_other_program :
    Regenerated .plain (.withPrograms []) (.withPrograms [("Q000.kt".toList, programOfGuide)])
      (generate Guide.publish .plain (.withPrograms []) [⟨"src/a.kt".toList⟩]).fs
      (generate Guide.publish .plain (.withPrograms [("Q000.kt".toList, programOfGuide)])
        [⟨"src/a.kt".toList⟩]).fs reportOfGuide :=
  (@generate_over_leftovers Guide.publish .plain (.withPrograms [])
    (.withPrograms [("Q000.kt".toList, programOfGuide)]) [] ⟨[⟨"src/a.kt".toList⟩], []⟩
    ⟨[⟨"src/a.kt".toList⟩], []⟩ reportOfGuide reportOfGuide (by decide +kernel) (by decide +kernel)
    (by decide +kernel) (by decide +kernel) (by decide +kernel) (by decide +kernel)
    (by decide +kernel) (by decide +kernel)).2.2

/-- What has been left makes a difference: a program of another guide is still there behind a run
that succeeds, and its class is listed with that of the program that has been written. -/
theorem leftovers_differ :
    ([Settings.plain.sources, Settings.plain.pages, Settings.plain.runnable,
        Settings.plain.exported].Pairwise fun a b =>
      ¬ a.resolve [] <+: b.resolve [] ∧ ¬ b.resolve [] <+: a.resolve []) ∧
    (FileSystem.withPrograms []).SameBut (Settings.plain.Holds [])
      (.withPrograms [("Q000.kt".toList, programOfGuide)]) ∧
    Scan.below (.withPrograms []) Settings.plain.sources [] = .ok ⟨[⟨"src/a.kt".toList⟩], []⟩ ∧
    Scan.below (.withPrograms [("Q000.kt".toList, programOfGuide)]) Settings.plain.sources [] =
      .ok ⟨[⟨"src/a.kt".toList⟩], []⟩ ∧
    (generate Guide.publish .plain (.withPrograms []) [⟨"src/a.kt".toList⟩]).result =
      .ok reportOfGuide ∧
    (generate Guide.publish .plain (.withPrograms [("Q000.kt".toList, programOfGuide)])
      [⟨"src/a.kt".toList⟩]).result = .ok reportOfGuide ∧
    (generate Guide.publish .plain (.withPrograms []) [⟨"src/a.kt".toList⟩]).fs.read
      ⟨"run/Q000.kt".toList⟩ = .error .notFound ∧
    (generate Guide.publish .plain (.withPrograms [("Q000.kt".toList, programOfGuide)])
      [⟨"src/a.kt".toList⟩]).fs.read ⟨"run/Q000.kt".toList⟩ = .ok programOfGuide ∧
    (Command.runClassNames (generate Guide.publish .plain (.withPrograms [])
      [⟨"src/a.kt".toList⟩]).fs ⟨[]⟩ (some Settings.plain.runnable) false).output =
        ["examples.P000Kt".toList] ∧
    (Command.runClassNames (generate Guide.publish .plain
      (.withPrograms [("Q000.kt".toList, programOfGuide)]) [⟨"src/a.kt".toList⟩]).fs ⟨[]⟩
        (some Settings.plain.runnable) false).output =
          ["examples.P000Kt".toList, "examples.Q000Kt".toList] := by
  decide +kernel

end Guidebook
