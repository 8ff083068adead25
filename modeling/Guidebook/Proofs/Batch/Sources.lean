import Guidebook.Proofs.Batch.Leftovers
import Guidebook.Proofs.Batch.Provenance

/-!
# Guides Are Not Overwritten

A run reads its guides one after the other, and writes between them. Where the roots of the outputs
lie apart from that of the guides, and the place of no guide climbs above its root, all that is
written lies beneath the roots of the outputs. So each guide still reads as it did at first when the
run comes to it, and what is generated from it can be told before the run.

## Main results

* `Settled.beneath`: the files of a guide lie beneath the roots for them.
* `Took.exists_unchanged`: **a run meets its guides as they were at first**.
* `Took.beneath_files`: the files that a run reports lie beneath the roots for them.
* `Took.exists_generation`: what is behind the files of a guide, in the file system before the run.
-/

namespace Guidebook

/-! ### Roots that lie apart -/

/-- The root of the guides and those of the outputs lie apart: none is another, or beneath it. -/
def Settings.Apart (settings : Settings) (here : Location) : Prop :=
  (settings.sources :: settings.roots).Pairwise fun a b =>
    ¬ a.resolve here <+: b.resolve here ∧ ¬ b.resolve here <+: a.resolve here

instance (settings : Settings) (here : Location) : Decidable (settings.Apart here) :=
  inferInstanceAs (Decidable (List.Pairwise _ _))

/-- The roots of the outputs lie apart from one another. -/
def Settings.OutputsApart (settings : Settings) (here : Location) : Prop :=
  settings.roots.Pairwise fun a b =>
    ¬ a.resolve here <+: b.resolve here ∧ ¬ b.resolve here <+: a.resolve here

instance (settings : Settings) (here : Location) : Decidable (settings.OutputsApart here) :=
  inferInstanceAs (Decidable (List.Pairwise _ _))

namespace Settings

variable {settings : Settings} {here : Location}

/-- The root for each kind of output is one of the roots. -/
theorem root_mem_roots (settings : Settings) (kind : OutputKind) :
    settings.root kind ∈ settings.roots := by
  cases kind <;> simp [root, roots]

/-- What lies beneath the root of the guides lies beneath no root of outputs. -/
theorem Apart.ne_of_beneath (h : settings.Apart here) {path file : Path}
    (hpath : settings.sources.resolve here <+: path.resolve here) {kind : OutputKind}
    (hfile : Beneath here (settings.root kind) file) : file.resolve here ≠ path.resolve here := by
  intro heq
  have hroots := List.rel_of_pairwise_cons h (settings.root_mem_roots kind)
  rcases List.prefix_or_prefix_of_prefix hpath (heq ▸ hfile.1) with habsurd | habsurd
  · exact hroots.1 habsurd
  · exact hroots.2 habsurd

/-- Beneath the root for the outputs of a kind is nothing beneath that of another. -/
theorem OutputsApart.not_prefix (h : settings.OutputsApart here) {kind other : OutputKind}
    (hne : kind ≠ other) {place : Location} (hkind : (settings.root kind).resolve here <+: place) :
    ¬ (settings.root other).resolve here <+: place := by
  intro hother
  have hroots : ¬ (settings.root kind).resolve here <+: (settings.root other).resolve here ∧
      ¬ (settings.root other).resolve here <+: (settings.root kind).resolve here := by
    simp only [OutputsApart, roots, List.pairwise_cons, List.mem_cons, List.not_mem_nil, or_false,
      forall_eq_or_imp, forall_eq] at h
    obtain ⟨⟨hrunnable, hexported⟩, hprograms, -⟩ := h
    cases kind <;> cases other
    all_goals first
      | exact absurd rfl hne
      | exact hrunnable
      | exact hrunnable.symm
      | exact hexported
      | exact hexported.symm
      | exact hprograms
      | exact hprograms.symm
  rcases List.prefix_or_prefix_of_prefix hkind hother with habsurd | habsurd
  · exact hroots.1 habsurd
  · exact hroots.2 habsurd

/-- Outputs of different kinds do not meet. -/
theorem Apart.resolve_ne (h : settings.Apart here) {kind other : OutputKind} (hne : kind ≠ other)
    {path file : Path} (hpath : Beneath here (settings.root kind) path)
    (hfile : Beneath here (settings.root other) file) : path.resolve here ≠ file.resolve here := by
  intro heq
  have houtputs : settings.OutputsApart here := h.of_cons
  exact houtputs.not_prefix hne hpath.1 (heq ▸ hfile.1)

end Settings

/-! ### The places of guides -/

/-- Moves among which there is no `..` never climb. -/
theorem Location.staysBelow_of_not_mem {depth : Nat} {moves : List Component}
    (hup : .up ∉ moves) (hroot : .root ∉ moves) : staysBelow depth moves = true := by
  induction moves generalizing depth with
  | nil => cases depth <;> rfl
  | cons component moves ih =>
      have hmore : ∀ depth, staysBelow depth moves = true := fun depth =>
        ih (fun hmem => hup (List.mem_cons_of_mem _ hmem))
          (fun hmem => hroot (List.mem_cons_of_mem _ hmem))
      cases component with
      | root => exact absurd List.mem_cons_self hroot
      | up => exact absurd List.mem_cons_self hup
      | here => cases depth <;> exact hmore _
      | name n => cases depth <;> exact hmore _

/-- The directory of a place without `..` never climbs. -/
theorem GuideFile.staysBelow_directoryOf {place : Path} (h : .up ∉ place.moves) :
    (directoryOf place).staysBelow = true := by
  refine Location.staysBelow_of_not_mem (fun hmem => h ?_) (Path.not_mem_spoken _).1
  rw [moves_directoryOf] at hmem
  exact List.dropLast_subset _ hmem

/-- The place that a candidate names, if it is a guide that can be published. -/
def placeFor? (publisher : Publisher) (settings : Settings) (fs : FileSystem) (path : Path) :
    Option Path :=
  match Format.ofPath? path, GuideFile.ofPath? settings.sources path, fs.read path with
  | some .kotlin, some file, .ok content =>
    match publisher.ofGuide settings file content with
    | .error _ => none
    | .ok publication => publishPlace? publication.directives
  | _, _, _ => none

section Places

variable {publisher : Publisher} {settings : Settings} {fs mid : FileSystem} {path : Path}

/-- The place of a guide that is turned into files is the one that its directives name. -/
theorem placeFor?_of_generation (g : Generation publisher settings fs path) :
    placeFor? publisher settings fs path = some g.place := by
  have hpublished : publisher.ofGuide settings g.file g.content = .ok g.publication := g.published
  simp only [placeFor?, Format.ofPath?_eq_kotlin_iff.2 g.isGuide, g.found, g.read, hpublished,
    g.placed]

/-- The place depends on nothing in the file system but the content of the guide. -/
theorem placeFor?_congr (h : mid.read path = fs.read path) :
    placeFor? publisher settings mid path = placeFor? publisher settings fs path := by
  rw [placeFor?, placeFor?, h]

/-- A generation from a guide that holds the same elsewhere. -/
def Generation.elsewhere (g : Generation publisher settings mid path)
    (h : mid.read path = fs.read path) : Generation publisher settings fs path :=
  { g with read := h ▸ g.read }

end Places

/-- The candidate has been found below the root of the guides, and its place, if it names one, never
climbs above its own root. -/
structure Settled (publisher : Publisher) (settings : Settings) (fs : FileSystem) (path : Path) :
    Prop where
  below : ∃ names, (∀ name ∈ names, Path.IsFileName name) ∧
    path = settings.sources.descend names ∧ fs.isFile path = true
  stays : ∀ place, placeFor? publisher settings fs path = some place →
    (GuideFile.directoryOf place).staysBelow = true

namespace Settled

variable {publisher : Publisher} {settings : Settings} {fs mid : FileSystem} {path : Path}

/-- A guide that has been found lies beneath the root of the guides. -/
theorem prefix_resolve (h : Settled publisher settings fs path) (here : Location) :
    settings.sources.resolve here <+: path.resolve here := by
  obtain ⟨names, hnames, rfl, -⟩ := h.below
  rw [Path.resolve_descend hnames]
  exact List.prefix_append _ _

/-- Candidates that have been found are settled if their places never climb. -/
theorem of_below {exclude : ExcludeSet} {found : Scan} (hnamed : fs.WellNamed)
    (hfound : Scan.below fs settings.sources exclude = .ok found) (hpath : path ∈ found.files)
    (hstays : ∀ place, placeFor? publisher settings fs path = some place →
      (GuideFile.directoryOf place).staysBelow = true) : Settled publisher settings fs path := by
  obtain ⟨names, -, hnames, hdescend, hfile⟩ := Scan.exists_descend_of_below hnamed hfound hpath
  exact ⟨⟨names, hnames, hdescend, hfile⟩, hstays⟩

variable (h : Settled publisher settings fs path) (g : Generation publisher settings fs path)

include h in
/-- Directories are read from within the roots for them. -/
theorem isAbsolute_within (kind : OutputKind) : (g.within kind).isAbsolute = false := by
  obtain ⟨names, hnames, hdescend, -⟩ := h.below
  exact Generation.isAbsolute_within g hnames hdescend kind

include h in
/-- **The files of a guide** lie beneath the roots for them. -/
theorem beneath (kind : OutputKind) {name : Text} (hname : Path.IsFileName name) :
    Beneath fs.here (settings.root kind)
      (((settings.root kind).join (g.within kind)).join ⟨name⟩) := by
  obtain ⟨names, hnames, hdescend, -⟩ := h.below
  exact g.beneath_within hnames hdescend (.inr (h.stays _ (placeFor?_of_generation g)))
    fs.here hname

include h in
/-- Every file that a guide writes lies beneath the root for its kind. -/
theorem exists_beneath {w : Path × Text} (hw : w ∈ writesOf g.plan.steps) :
    ∃ kind, Beneath fs.here (settings.root kind) w.1 := by
  obtain ⟨step, hstep, hwrite⟩ := List.mem_filterMap.1 hw
  cases step with
  | ensure directory => cases hwrite
  | write kind target content =>
      obtain rfl := Option.some.inj hwrite
      obtain ⟨name, hname, rfl, -⟩ := g.exists_name_of_write hstep
      exact ⟨kind, h.beneath g kind hname⟩

include h in
/-- The page lies beneath the root for pages. -/
theorem beneath_page : Beneath fs.here (settings.root .page) g.plan.outputs.page :=
  g.page_eq ▸ h.beneath g .page g.isFileName_page

include h in
/-- The runnable programs lie beneath the root for them. -/
theorem beneath_runnable {file : Path} (hfile : file ∈ g.plan.outputs.runnable) :
    Beneath fs.here (settings.root .runnable) file := by
  rw [g.runnable_eq] at hfile
  obtain ⟨index, rfl⟩ := exists_index_of_mem_programPaths hfile
  exact h.beneath g .runnable (isFileName_program (Text.not_mem_capitalize g.not_mem_pageName)
    g.not_mem_extension index)

include h in
/-- The exported programs lie beneath the root for them. -/
theorem beneath_exported {file : Path} (hfile : file ∈ g.plan.outputs.exported) :
    Beneath fs.here (settings.root .exported) file := by
  rw [g.exported_eq] at hfile
  obtain ⟨index, rfl⟩ := exists_index_of_mem_programPaths hfile
  exact h.beneath g .exported (isFileName_program g.not_mem_name g.not_mem_extension index)

end Settled

/-! ### Runs -/

/-- A file reads the same behind writes to other places, and is still there. -/
theorem FileSystem.Change.read_eq {fs later : FileSystem} {writes : List (Path × Text)}
    {made : List Location} {path : Path} (h : fs.Change writes made later)
    (hfile : fs.isFile path = true)
    (hspared : ∀ w ∈ writes, w.1.resolve fs.here ≠ path.resolve fs.here) :
    later.read path = fs.read path ∧ later.isFile path = true := by
  obtain ⟨content, hlocate, hentry⟩ := entryAt?_of_isFile hfile
  have hlater : later.tree.entryAt? (path.resolve fs.here) = some (.file content) :=
    (h.file_iff (lastWrite?_eq_none_iff.2 hspared)).2 hentry
  have hthere := locate_of_grows h.keeps.toGrows hlocate
  constructor
  · simp only [FileSystem.read, hlocate, hthere, bind, Except.bind, hentry, hlater]
  · have hsame := eq_resolve_of_locate hthere
    rw [hsame] at hthere hlater
    exact isFile_iff.2 ⟨content, entryAt?_eq_some_iff.2 ⟨hthere, hlater⟩⟩

section Runs

variable {publisher : Publisher} {settings : Settings} {fs later : FileSystem}
  {taken : List (Path × Outcome)} {path : Path} {outcome : Outcome}

/-- What a candidate writes that has not stopped a run lies beneath the roots of the outputs. -/
theorem Settled.exists_beneath_of_steps (h : Settled publisher settings fs path)
    (hprocess : (processFile publisher settings fs path).result = .ok outcome) {w : Path × Text}
    (hw : w ∈ writesOf (stepsFor publisher settings fs path)) :
    ∃ kind, Beneath fs.here (settings.root kind) w.1 := by
  obtain ⟨g, -⟩ := exists_generation_of_mem_writesOf hprocess hw
  rw [stepsFor_of_generation g] at hw
  exact h.exists_beneath g hw

/-- A candidate that has not stopped a run leaves the others as they were. -/
theorem Settled.unchanged (h : Settled publisher settings fs path)
    (hapart : settings.Apart fs.here)
    (hprocess : (processFile publisher settings fs path).result = .ok outcome) :
    (processFile publisher settings fs path).fs.here = fs.here ∧
      ∀ other, Settled publisher settings fs other →
        (processFile publisher settings fs path).fs.read other = fs.read other ∧
        Settled publisher settings (processFile publisher settings fs path).fs other := by
  have hcarried := carriedOut_processFile hprocess
  have hchange := (performed_performAll hcarried.completed).change
  rw [← hcarried.left] at hchange
  refine ⟨hchange.here, fun other hother => ?_⟩
  obtain ⟨names, hnames, hdescend, hfile⟩ := hother.below
  obtain ⟨hread, hkept⟩ := hchange.read_eq hfile fun w hw => by
    obtain ⟨kind, hbeneath⟩ := h.exists_beneath_of_steps hprocess hw
    exact hapart.ne_of_beneath (hother.prefix_resolve fs.here) hbeneath
  exact ⟨hread, ⟨names, hnames, hdescend, hkept⟩, fun place hplace =>
    hother.stays place ((placeFor?_congr hread).symm.trans hplace)⟩

/-- **A run meets its guides as they were at first.** -/
theorem Took.exists_unchanged (h : Took publisher settings fs taken later)
    (hapart : settings.Apart fs.here)
    (hsettled : ∀ c ∈ taken, Settled publisher settings fs c.1) :
    ∀ c ∈ taken, ∃ mid : FileSystem, mid.here = fs.here ∧ mid.read c.1 = fs.read c.1 ∧
      (processFile publisher settings mid c.1).result = .ok c.2 := by
  induction h with
  | nil fs => simp
  | @cons fs later path outcome taken first others ih =>
      obtain ⟨hhere, hunchanged⟩ := (hsettled _ List.mem_cons_self).unchanged hapart first
      have hrest := ih (hhere ▸ hapart) fun c hc =>
        (hunchanged c.1 (hsettled c (List.mem_cons_of_mem _ hc))).2
      intro c hc
      rcases List.mem_cons.1 hc with rfl | hc
      · exact ⟨fs, rfl, rfl, first⟩
      · obtain ⟨mid, hmidHere, hread, hmid⟩ := hrest c hc
        exact ⟨mid, hmidHere.trans hhere,
          hread.trans (hunchanged c.1 (hsettled c (List.mem_cons_of_mem _ hc))).1, hmid⟩

/-- **What is behind the files of a guide**, in the file system before the run. -/
theorem Took.exists_generation (h : Took publisher settings fs taken later)
    (hapart : settings.Apart fs.here) (hsettled : ∀ c ∈ taken, Settled publisher settings fs c.1)
    {outputs : Outputs} (hmem : (path, .generated outputs) ∈ taken) :
    ∃ g : Generation publisher settings fs path, outputs = g.plan.outputs := by
  obtain ⟨mid, -, hread, hmid⟩ := h.exists_unchanged hapart hsettled _ hmem
  obtain ⟨g, -, houtputs, -⟩ := Guidebook.exists_generation hmid
  exact ⟨g.elsewhere hread, houtputs⟩

section Reported

variable (h : Took publisher settings fs taken later) (hapart : settings.Apart fs.here)
  (hsettled : ∀ c ∈ taken, Settled publisher settings fs c.1) {c : Path × Outcome} (hc : c ∈ taken)
  {file : Path}

include h hapart hsettled hc in
/-- A runnable program of a run has been generated from the guide as it was at first. -/
theorem Took.exists_generation_of_runnable
    (hfile : file ∈ (Report.ofCandidate settings c.1 c.2).runnable) :
    ∃ g : Generation publisher settings fs c.1, file ∈ g.plan.outputs.runnable := by
  obtain ⟨path, outcome⟩ := c
  cases outcome with
  | generated outputs =>
      obtain ⟨g, houtputs⟩ := h.exists_generation hapart hsettled hc
      exact ⟨g, houtputs ▸ hfile⟩
  | skipped rejection => cases hfile
  | ignored => cases hfile

include h hapart hsettled hc in
/-- An exported program of a run has been generated from the guide as it was at first. -/
theorem Took.exists_generation_of_exported
    (hfile : file ∈ (Report.ofCandidate settings c.1 c.2).exported) :
    ∃ g : Generation publisher settings fs c.1, file ∈ g.plan.outputs.exported := by
  obtain ⟨path, outcome⟩ := c
  cases outcome with
  | generated outputs =>
      obtain ⟨g, houtputs⟩ := h.exists_generation hapart hsettled hc
      exact ⟨g, houtputs ▸ hfile⟩
  | skipped rejection => cases hfile
  | ignored => cases hfile

include h hapart hsettled in
/-- **The files that a run reports** lie beneath the roots for them. -/
theorem Took.beneath_files :
    (∀ p ∈ (Report.ofTaken settings taken).pages, Beneath fs.here (settings.root .page) p) ∧
      (∀ p ∈ (Report.ofTaken settings taken).runnable,
        Beneath fs.here (settings.root .runnable) p) ∧
      ∀ p ∈ (Report.ofTaken settings taken).exported,
        Beneath fs.here (settings.root .exported) p := by
  obtain ⟨hpages, hrunnable, hexported, -⟩ := Report.ofTaken_lists settings taken
  rw [hpages, hrunnable, hexported]
  refine ⟨fun p hp => ?_, fun p hp => ?_, fun p hp => ?_⟩
  · obtain ⟨⟨path, outcome⟩, hc, hp⟩ := List.mem_flatMap.1 hp
    cases outcome with
    | generated outputs =>
        obtain ⟨g, rfl⟩ := h.exists_generation hapart hsettled hc
        obtain rfl := List.mem_singleton.1 hp
        exact (hsettled _ hc).beneath_page g
    | skipped rejection => cases hp
    | ignored => cases hp
  · obtain ⟨c, hc, hp⟩ := List.mem_flatMap.1 hp
    obtain ⟨g, hp⟩ := h.exists_generation_of_runnable hapart hsettled hc hp
    exact (hsettled c hc).beneath_runnable g hp
  · obtain ⟨c, hc, hp⟩ := List.mem_flatMap.1 hp
    obtain ⟨g, hp⟩ := h.exists_generation_of_exported hapart hsettled hc hp
    exact (hsettled c hc).beneath_exported g hp

end Reported

end Runs

end Guidebook
