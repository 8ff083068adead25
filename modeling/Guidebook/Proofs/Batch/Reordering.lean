import Guidebook.Proofs.Batch.Elsewhere
import Mathlib.Algebra.GroupWithZero.Nat

/-!
# The Order of Candidates

Candidates are independent if no file that one of them writes is written by another or is a
candidate itself. A run over independent candidates may still depend on their order: one of them may
need a directory that another makes, to write its own files or even to be found. This is all that
can happen: the candidates can be taken in any order if, and only if, each of them can be taken by
itself.

For then each has the same steps wherever it is taken, and these can be carried out in any file
system between the one at the beginning and the one at the end of the run in the given order. They
lead to such a file system again. In the end the same steps have been carried out in a different
order, and since no two of them write to the same place, the same lies everywhere.

## Main results

* `Took.alike`: each candidate in the run has the same steps as by itself.
* `exists_took_between`: **the candidates in any order**, between the beginning and the end.
* `generate_perm_iff`: **when the order does not matter**.
-/

namespace Guidebook

open FileSystem

/-! ### Independent candidates -/

/-- Different candidates write to different places, and none of them to the place of a candidate. -/
structure Independent (settings : Settings) (here : Location) (taken : List (Path × Outcome)) :
    Prop where
  apart : ∀ c ∈ taken, ∀ d ∈ taken, c.1 ≠ d.1 →
    ∀ p ∈ (Report.ofCandidate settings c.1 c.2).files,
      ∀ q ∈ (Report.ofCandidate settings d.1 d.2).files, p.resolve here ≠ q.resolve here
  spared : ∀ c ∈ taken, ∀ d ∈ taken, ∀ p ∈ (Report.ofCandidate settings c.1 c.2).files,
    p.resolve here ≠ d.1.resolve here

instance (settings : Settings) (here : Location) (taken : List (Path × Outcome)) :
    Decidable (Independent settings here taken) :=
  decidable_of_iff ((∀ c ∈ taken, ∀ d ∈ taken, c.1 ≠ d.1 →
      ∀ p ∈ (Report.ofCandidate settings c.1 c.2).files,
        ∀ q ∈ (Report.ofCandidate settings d.1 d.2).files, p.resolve here ≠ q.resolve here) ∧
    ∀ c ∈ taken, ∀ d ∈ taken, ∀ p ∈ (Report.ofCandidate settings c.1 c.2).files,
      p.resolve here ≠ d.1.resolve here)
    ⟨fun h => ⟨h.1, h.2⟩, fun h => ⟨h.apart, h.spared⟩⟩

/-! ### What is written in the end -/

/-- The files that are written for several items are those that are written for each. -/
theorem writesOf_flatMap {α : Type} (items : List α) (steps : α → List Step) :
    writesOf (items.flatMap steps) = items.flatMap fun a => writesOf (steps a) :=
  List.filterMap_flatMap

/-- The last write to a place among writes that are apart is the only one there. -/
theorem lastWrite?_flatMap {α : Type} {here place : Location} {content : Text}
    {writes : α → List (Path × Text)} {items : List α}
    (hapart : ∀ a ∈ items, ∀ b ∈ items, a ≠ b → ∀ w ∈ writes a, ∀ v ∈ writes b,
      w.1.resolve here ≠ v.1.resolve here) :
    lastWrite? here place (items.flatMap writes) = some content ↔
      ∃ a ∈ items, lastWrite? here place (writes a) = some content := by
  induction items generalizing content with
  | nil => simp
  | cons a items ih =>
      have hitems := fun {content : Text} => @ih content fun b hb c hc =>
        hapart b (List.mem_cons_of_mem a hb) c (List.mem_cons_of_mem a hc)
      rw [List.flatMap_cons, lastWrite?_append]
      constructor
      · intro h
        rcases Option.or_eq_some_iff.1 h with hlast | ⟨-, hfirst⟩
        · obtain ⟨b, hb, hcontent⟩ := hitems.1 hlast
          exact ⟨b, List.mem_cons_of_mem a hb, hcontent⟩
        · exact ⟨a, List.mem_cons_self, hfirst⟩
      · rintro ⟨b, hb, hcontent⟩
        cases hlast : lastWrite? here place (items.flatMap writes) with
        | none =>
            rcases List.mem_cons.1 hb with rfl | hb
            · exact hcontent
            · rw [hitems.2 ⟨b, hb, hcontent⟩] at hlast
              cases hlast
        | some other =>
            obtain ⟨c, hc, hother⟩ := hitems.1 hlast
            by_cases hsame : b = c
            · subst hsame
              rw [hcontent] at hother
              rw [← hother]
              rfl
            · obtain ⟨w, hw, hplace, -⟩ := exists_mem_of_lastWrite? hcontent
              obtain ⟨v, hv, hthere, -⟩ := exists_mem_of_lastWrite? hother
              exact absurd (hplace.trans hthere.symm)
                (hapart b hb c (List.mem_cons_of_mem a hc) hsame w hw v hv)

/-- File systems that the same steps lead to, in different orders, are the same if the last writes
are. -/
theorem Performed.eq_of_same {fs first second : FileSystem} {steps others : List Step}
    (hfirst : Performed fs steps first) (hsecond : Performed fs others second)
    (hsteps : ∀ step, step ∈ steps ↔ step ∈ others)
    (hwrites : ∀ place, lastWrite? fs.here place (writesOf steps) =
      lastWrite? fs.here place (writesOf others)) :
    first = second := by
  have hdirectories : ∀ directory, directory ∈ directoriesOf steps ↔
      directory ∈ directoriesOf others := by
    intro directory
    simp only [directoriesOf, List.mem_filterMap, hsteps]
  have hways : ∀ place, place ∈ waysOf fs.here steps ↔ place ∈ waysOf fs.here others := by
    intro place
    simp only [waysOf, List.mem_flatMap, hdirectories]
  have hentry : ∀ place, first.tree.entryAt? place = second.tree.entryAt? place := by
    intro place
    simp only [hfirst.entryAt?_eq, hsecond.entryAt?_eq, hwrites, hways]
  exact congrArg₂ FileSystem.mk (FileTree.ext_entryAt? hentry)
    (hfirst.change.here.trans hsecond.change.here.symm)

/-! ### Candidates that can be taken by themselves -/

section Alone

variable {publisher : Publisher} {settings : Settings} {fs mid last : FileSystem}
  {outcome : Path → Outcome} {before : List Step}

/-- **Each candidate in the run has the same steps as by itself**, and the same outcome. -/
theorem Took.alike {taken : List (Path × Outcome)} (h : Took publisher settings mid taken last)
    (hbefore : Performed fs before mid)
    (halone : ∀ c ∈ taken, (processFile publisher settings fs c.1).result = .ok (outcome c.1))
    (hspared : ∀ c ∈ taken, ∀ d ∈ taken, ∀ p ∈ (Report.ofCandidate settings c.1 c.2).files,
      p.resolve fs.here ≠ d.1.resolve fs.here)
    (hclear : ∀ w ∈ writesOf before, ∀ c ∈ taken, w.1.resolve fs.here ≠ c.1.resolve fs.here) :
    taken = (taken.map Prod.fst).map (fun path => (path, outcome path)) ∧
      stepsOfRun publisher settings mid (taken.map Prod.fst) =
        (taken.map Prod.fst).flatMap (stepsFor publisher settings fs) := by
  induction h generalizing before with
  | nil mid => exact ⟨rfl, rfl⟩
  | @cons mid last path there taken first others ih =>
      have helsewhere := processFile_elsewhere (halone _ List.mem_cons_self) fun t ht =>
        read_of_change hbefore.change (fun w hw => hclear w hw _ List.mem_cons_self) ht
      have hsame : there = outcome path := helsewhere.outcome_eq first
      have hcarried := carriedOut_processFile first
      have hsteps := performed_performAll hcarried.completed
      have hnamed := hcarried.named
      rw [← hcarried.left, helsewhere.steps] at hsteps
      rw [helsewhere.steps] at hnamed
      obtain ⟨htaken, hrun⟩ := ih (hbefore.trans hsteps)
        (fun c hc => halone c (List.mem_cons_of_mem _ hc))
        (fun c hc d hd => hspared c (List.mem_cons_of_mem _ hc) d (List.mem_cons_of_mem _ hd))
        (by
          intro w hw c hc
          rw [writesOf_append, List.mem_append] at hw
          rcases hw with hw | hw
          · exact hclear w hw c (List.mem_cons_of_mem _ hc)
          · refine hspared _ List.mem_cons_self c (List.mem_cons_of_mem _ hc) w.1 ?_
            rw [hnamed]
            exact List.mem_map_of_mem hw)
      refine ⟨?_, ?_⟩
      · rw [List.map_cons, List.map_cons, ← htaken, hsame]
      · rw [List.map_cons, stepsOfRun, hrun, helsewhere.steps, List.flatMap_cons]

/-- **The candidates in any order** can be taken between the file system in which each of them can
be taken by itself and one in which everything is as their steps leave it. -/
theorem exists_took_between {paths : List Path} (hbefore : Performed fs before mid)
    (hlast : Keeps mid last)
    (halone : ∀ path ∈ paths, (processFile publisher settings fs path).result = .ok (outcome path))
    (hcontains : ∀ path ∈ paths, Contains last (stepsFor publisher settings fs path))
    (hspared : ∀ path ∈ paths, ∀ other ∈ paths,
      ∀ w ∈ writesOf (stepsFor publisher settings fs path),
        w.1.resolve fs.here ≠ other.resolve fs.here)
    (hclear : ∀ w ∈ writesOf before, ∀ path ∈ paths, w.1.resolve fs.here ≠ path.resolve fs.here) :
    ∃ later, Took publisher settings mid (paths.map fun path => (path, outcome path)) later ∧
      Performed fs (before ++ paths.flatMap (stepsFor publisher settings fs)) later := by
  induction paths generalizing mid before with
  | nil => exact ⟨mid, .nil mid, by simpa using hbefore⟩
  | cons path paths ih =>
      have hpath := halone path List.mem_cons_self
      have helsewhere := processFile_elsewhere hpath fun t ht =>
        read_of_change hbefore.change (fun w hw => hclear w hw _ List.mem_cons_self) ht
      obtain ⟨hdone, hnext⟩ := performAll_between hbefore.change.keeps hlast
        (hcontains path List.mem_cons_self) (carriedOut_processFile hpath).completed
      have hsteps := performed_performAll hdone
      rw [← helsewhere.left] at hsteps hnext
      obtain ⟨later, htook, hall⟩ := ih (hbefore.trans hsteps) hnext
        (fun other hother => halone other (List.mem_cons_of_mem _ hother))
        (fun other hother => hcontains other (List.mem_cons_of_mem _ hother))
        (fun p hp q hq => hspared p (List.mem_cons_of_mem _ hp) q (List.mem_cons_of_mem _ hq))
        (by
          intro w hw other hother
          rw [writesOf_append, List.mem_append] at hw
          rcases hw with hw | hw
          · exact hclear w hw other (List.mem_cons_of_mem _ hother)
          · exact hspared path List.mem_cons_self other (List.mem_cons_of_mem _ hother) w hw)
      rw [List.append_assoc, ← List.flatMap_cons] at hall
      exact ⟨later, .cons (helsewhere.of_completed hdone) htook, hall⟩

/-- **Independent candidates that can be taken by themselves** can be taken in any order, with the
same outcomes, and what is left in the end is the same. -/
theorem Took.of_perm {taken : List (Path × Outcome)} (h : Took publisher settings fs taken last)
    (hindependent : Independent settings fs.here taken)
    (halone : ∀ path ∈ taken.map Prod.fst,
      (processFile publisher settings fs path).result = .ok (outcome path)) :
    taken = (taken.map Prod.fst).map (fun path => (path, outcome path)) ∧
      ∀ other : List Path, other.Perm (taken.map Prod.fst) →
        Took publisher settings fs (other.map fun path => (path, outcome path)) last := by
  obtain ⟨htaken, hrun⟩ := h.alike (.refl fs)
    (fun c hc => halone c.1 (List.mem_map_of_mem hc)) hindependent.spared (by simp [writesOf])
  obtain ⟨hdone, hfs⟩ := h.performAll_eq
  have hlast := performed_performAll hdone
  rw [hfs, hrun] at hlast
  generalize hpaths : taken.map Prod.fst = paths at *
  subst htaken
  have hfiles : ∀ path ∈ paths, ∀ w ∈ writesOf (stepsFor publisher settings fs path),
      w.1 ∈ (Report.ofCandidate settings path (outcome path)).files :=
    fun path hpath w hw => (carriedOut_processFile (halone path hpath)).mem_files hw
  have hspared : ∀ path ∈ paths, ∀ other ∈ paths,
      ∀ w ∈ writesOf (stepsFor publisher settings fs path),
        w.1.resolve fs.here ≠ other.resolve fs.here := by
    intro path hpath other hother w hw
    exact hindependent.spared _ (List.mem_map_of_mem hpath) _ (List.mem_map_of_mem hother) _
      (hfiles path hpath w hw)
  refine ⟨rfl, fun other hperm => ?_⟩
  have hmem : ∀ {path}, path ∈ other ↔ path ∈ paths := hperm.mem_iff
  obtain ⟨later, htook, hlater⟩ := exists_took_between (.refl fs) hlast.change.keeps
    (fun path hpath => halone path (hmem.1 hpath))
    (fun path hpath => hlast.contains.of_subset fun step hstep =>
      List.mem_flatMap.2 ⟨path, hmem.1 hpath, hstep⟩)
    (fun path hpath next hnext => hspared path (hmem.1 hpath) next (hmem.1 hnext))
    (by simp [writesOf])
  rw [List.nil_append] at hlater
  have hapart : ∀ a ∈ paths, ∀ b ∈ paths, a ≠ b → ∀ w ∈ writesOf (stepsFor publisher settings fs a),
      ∀ v ∈ writesOf (stepsFor publisher settings fs b),
        w.1.resolve fs.here ≠ v.1.resolve fs.here := by
    intro a ha b hb hne w hw v hv
    exact hindependent.apart _ (List.mem_map_of_mem ha) _ (List.mem_map_of_mem hb) hne _
      (hfiles a ha w hw) _ (hfiles b hb v hv)
  obtain rfl : later = last := by
    refine hlater.eq_of_same hlast (fun step => ?_) fun place => Option.ext fun content => ?_
    · simp only [List.mem_flatMap, hmem]
    · rw [writesOf_flatMap, writesOf_flatMap, lastWrite?_flatMap hapart,
        lastWrite?_flatMap fun a ha b hb => hapart a (hmem.1 ha) b (hmem.1 hb)]
      simp only [hmem]
  exact htook

end Alone

/-! ### Runs in any order -/

/-- The count of files that are no guides adds up those of the candidates. -/
theorem Report.ignored_ofTaken (settings : Settings) (taken : List (Path × Outcome)) :
    (ofTaken settings taken).ignored =
      (taken.map fun c => (ofCandidate settings c.1 c.2).ignored).sum := by
  induction taken with
  | nil => rfl
  | cons candidate taken ih =>
      rw [ofTaken_cons, ignored_append, ih]
      rfl

/-- **When the order does not matter.** A run over independent candidates that succeeds can be
carried out in any order if and only if each of its candidates can be taken by itself. The run then
leaves the same files and directories in any order, and the report puts together the same summaries
of the candidates, in the order in which they are taken, and counts as many that are ignored. -/
theorem generate_perm_iff {publisher : Publisher} {settings : Settings} {fs : FileSystem}
    {paths : List Path} {report : Report}
    (h : (generate publisher settings fs paths).result = .ok report)
    (hindependent : Independent settings fs.here (outcomesOf publisher settings fs paths)) :
    (∀ path ∈ paths, ∃ alone, (generate publisher settings fs [path]).result = .ok alone) ↔
      ∃ outcome : Path → Outcome,
        report = .ofTaken settings (paths.map fun path => (path, outcome path)) ∧
        ∀ other, other.Perm paths →
          (generate publisher settings fs other).result =
              .ok (.ofTaken settings (other.map fun path => (path, outcome path))) ∧
            (Report.ofTaken settings (other.map fun path => (path, outcome path))).ignored =
              report.ignored ∧
            (generate publisher settings fs other).fs =
              (generate publisher settings fs paths).fs := by
  obtain ⟨taken, rfl, htook, rfl⟩ := exists_took h
  rw [htook.outcomesOf_eq] at hindependent
  constructor
  · intro halone
    have hchoice : ∀ path, ∃ outcome, path ∈ taken.map Prod.fst →
        (processFile publisher settings fs path).result = .ok outcome := by
      intro path
      by_cases hpath : path ∈ taken.map Prod.fst
      · obtain ⟨alone, hone⟩ := halone path hpath
        cases hresult : (processFile publisher settings fs path).result with
        | error failure =>
            rw [(generate_cons_of_error [] hresult).1] at hone
            cases hone
        | ok outcome => exact ⟨outcome, fun _ => rfl⟩
      · exact ⟨.ignored, fun habsurd => absurd habsurd hpath⟩
    choose outcome houtcome using hchoice
    obtain ⟨htaken, hany⟩ := htook.of_perm hindependent houtcome
    refine ⟨outcome, congrArg _ htaken, fun other hperm => ?_⟩
    obtain ⟨hresult, hfs⟩ := (hany other hperm).generate_eq
    rw [List.map_map, show (Prod.fst ∘ fun path => (path, outcome path)) = id from rfl,
      List.map_id] at hresult hfs
    refine ⟨hresult, ?_, hfs⟩
    rw [htaken, Report.ignored_ofTaken, Report.ignored_ofTaken]
    exact ((hperm.map _).map _).sum_nat
  · rintro ⟨outcome, -, hany⟩ path hpath
    -- The run that takes the candidate first succeeds.
    have hfirst := (hany (path :: (taken.map Prod.fst).erase path)
      (List.perm_cons_erase hpath).symm).1
    cases hresult : (processFile publisher settings fs path).result with
    | error failure =>
        rw [(generate_cons_of_error _ hresult).1] at hfirst
        cases hfirst
    | ok alone => exact ⟨_, (generate_singleton_of_ok hresult).1⟩

/-- Two guides, one that is empty, and a file that is no guide. -/
def FileSystem.fourSources : FileSystem :=
  .ofSources [("a.kt".toList, guideAt "p".toList "Code".toList),
    ("b.kt".toList, guideAt "q/r".toList "Code".toList), ("c.kt".toList, []), ("d.txt".toList, [])]

/-- They can be taken from the last to the first. -/
theorem generate_perm_of_four_sources :
    (generate Guide.publish .plain .fourSources
        [⟨"src/d.txt".toList⟩, ⟨"src/c.kt".toList⟩, ⟨"src/b.kt".toList⟩, ⟨"src/a.kt".toList⟩]).fs =
      (generate Guide.publish .plain .fourSources
        [⟨"src/a.kt".toList⟩, ⟨"src/b.kt".toList⟩, ⟨"src/c.kt".toList⟩,
          ⟨"src/d.txt".toList⟩]).fs := by
  have hrun : (generate Guide.publish .plain .fourSources [⟨"src/a.kt".toList⟩, ⟨"src/b.kt".toList⟩,
      ⟨"src/c.kt".toList⟩, ⟨"src/d.txt".toList⟩]).result = .ok
        { pages := [⟨"pages/p.markdown".toList⟩, ⟨"pages/q/r.markdown".toList⟩]
          runnable := [⟨"run/P000.kt".toList⟩, ⟨"run/q/R000.kt".toList⟩]
          exported := [⟨"out/a000.kt".toList⟩, ⟨"out/b000.kt".toList⟩]
          skipped := [⟨⟨"c.kt".toList⟩, ⟨1, "missing `fun main() \x7b` entry point".toList⟩⟩]
          ignored := 1 } := by
    decide +kernel
  have halone : ∀ path ∈ [(⟨"src/a.kt".toList⟩ : Path), ⟨"src/b.kt".toList⟩, ⟨"src/c.kt".toList⟩,
      ⟨"src/d.txt".toList⟩],
      (generate Guide.publish .plain .fourSources [path]).result.isOk = true := by
    decide +kernel
  obtain ⟨outcome, -, hany⟩ := (generate_perm_iff hrun (by decide +kernel)).1 fun path hpath => by
    have hok := halone path hpath
    cases hresult : (generate Guide.publish .plain .fourSources [path]).result with
    | error failure => rw [hresult] at hok; cases hok
    | ok alone => exact ⟨alone, rfl⟩
  exact (hany _ (by decide)).2.2

/-- A root for pages that ends with a `.` is made only on the way to a directory below it, and a
guide may be found by way of a directory that is made for another: in the one order the run
succeeds, and in the other it does not. -/
theorem generate_not_perm :
    (∃ report, (generate Guide.publish { Settings.plain with pages := ⟨"docs/.".toList⟩ }
        (.ofGuides [("a.kt".toList, "a/x".toList), ("b.kt".toList, "y".toList)])
        [⟨"src/a.kt".toList⟩, ⟨"src/b.kt".toList⟩]).result = .ok report) ∧
      Independent { Settings.plain with pages := ⟨"docs/.".toList⟩ } []
        (outcomesOf Guide.publish { Settings.plain with pages := ⟨"docs/.".toList⟩ }
          (.ofGuides [("a.kt".toList, "a/x".toList), ("b.kt".toList, "y".toList)])
          [⟨"src/a.kt".toList⟩, ⟨"src/b.kt".toList⟩]) ∧
      (generate Guide.publish { Settings.plain with pages := ⟨"docs/.".toList⟩ }
        (.ofGuides [("a.kt".toList, "a/x".toList), ("b.kt".toList, "y".toList)])
        [⟨"src/b.kt".toList⟩, ⟨"src/a.kt".toList⟩]).result = .error (.io .notFound) ∧
    (∃ report, (generate Guide.publish { Settings.plain with pages := ⟨"src/new".toList⟩ }
        (.ofGuides [("a.kt".toList, "x".toList), ("b.kt".toList, "y".toList)])
        [⟨"src/a.kt".toList⟩, ⟨"src/new/../b.kt".toList⟩]).result = .ok report) ∧
      Independent { Settings.plain with pages := ⟨"src/new".toList⟩ } []
        (outcomesOf Guide.publish { Settings.plain with pages := ⟨"src/new".toList⟩ }
          (.ofGuides [("a.kt".toList, "x".toList), ("b.kt".toList, "y".toList)])
          [⟨"src/a.kt".toList⟩, ⟨"src/new/../b.kt".toList⟩]) ∧
      (generate Guide.publish { Settings.plain with pages := ⟨"src/new".toList⟩ }
        (.ofGuides [("a.kt".toList, "x".toList), ("b.kt".toList, "y".toList)])
        [⟨"src/new/../b.kt".toList⟩, ⟨"src/a.kt".toList⟩]).result = .error (.io .notFound) := by
  refine ⟨⟨{ Report.empty with
      pages := [⟨"docs/./a/x.markdown".toList⟩, ⟨"docs/./y.markdown".toList⟩]
      runnable := [⟨"run/a/X000.kt".toList⟩, ⟨"run/Y000.kt".toList⟩]
      exported := [⟨"out/a000.kt".toList⟩, ⟨"out/b000.kt".toList⟩] }, ?_⟩, ?_, ?_,
    ⟨{ Report.empty with
      pages := [⟨"src/new/x.markdown".toList⟩, ⟨"src/new/y.markdown".toList⟩]
      runnable := [⟨"run/X000.kt".toList⟩, ⟨"run/Y000.kt".toList⟩]
      exported := [⟨"out/a000.kt".toList⟩, ⟨"out/new/../b000.kt".toList⟩] }, ?_⟩, ?_, ?_⟩
  all_goals decide +kernel

end Guidebook
