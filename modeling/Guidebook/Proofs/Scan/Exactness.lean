import Guidebook.Proofs.Batch.Provenance
import Guidebook.Proofs.ItemByItem
import Guidebook.Proofs.Scan.Completeness
import Guidebook.Proofs.Scan.Relocation

/-!
# What Exactly a Scan Finds

Of the files below its root, a scan finds those under names none of which begins with a dot, unless
a pattern matches the path of the file or of a directory on the way to it. In which order
directories are listed makes no difference, since what is found is sorted in the end.

Patterns are usable one by one: which texts can be patterns together, and what they match together,
is told by each of them. So neither their order nor how often they are given plays a role, and two
sets of patterns together leave over what each of them leaves over.

## Main results

* `ExcludeSet.ofPatterns_eq_ok_iff`, `ExcludeSet.covers_iff`: patterns are usable **one by one**.
* `Scan.files_listedBy`: the order in which directories are listed **makes no difference**.
* `Scan.mem_filesIn_iff`: which files a scan finds.
* `Scan.finds_exactly`: **a scan finds exactly the candidates**, and what that says of patterns.
-/

namespace Guidebook

/-! ### Patterns -/

namespace ExcludeSet

variable {patterns more : List Text} {exclude : ExcludeSet}

/-- The text is a pattern that can be used with others, and holds this one. -/
def Compiles (pattern : Text) (glob : Glob) : Prop :=
  Glob.parse pattern = .ok glob ∧
    (glob.basis = .extension ∨ glob.basis = .whole → glob.isTooDeep = false)

/-- The pattern that a text holds matches a path. -/
def Matches (pattern : Text) (path : Path) : Prop :=
  ∃ glob, Glob.parse pattern = .ok glob ∧ glob.isMatch path = true

/-- Patterns can be used together unless one for which an extension or all of a path counts is
nested too deep. -/
theorem nestingFault?_eq_none_iff {globs : List Glob} :
    Glob.nestingFault? globs = none ↔
      ∀ glob ∈ globs, glob.basis = .extension ∨ glob.basis = .whole → glob.isTooDeep = false := by
  rw [Glob.nestingFault?]
  split
  · next glob hfound =>
    have htrue := List.find?_some hfound
    simp only [Bool.and_eq_true, decide_eq_true_eq] at htrue
    refine ⟨nofun, fun h => ?_⟩
    exact absurd htrue.2 (by simp [h glob (List.mem_of_find?_eq_some hfound) (.inl htrue.1)])
  · next hnone =>
    rw [List.find?_eq_none] at hnone
    rw [Option.map_eq_none_iff, List.findIdx?_eq_none_iff]
    constructor
    · rintro h glob hmem (hbasis | hbasis)
      · simpa [hbasis] using hnone glob hmem
      · exact h glob (List.mem_filter.2 ⟨hmem, by simp [hbasis]⟩)
    · intro h glob hmem
      obtain ⟨hmem, hbasis⟩ := List.mem_filter.1 hmem
      exact h glob hmem (.inr (of_decide_eq_true hbasis))

/-- A text holds a pattern if it can be parsed. -/
theorem globOf_eq_ok_iff {pattern : Text} {glob : Glob} :
    globOf pattern = .ok glob ↔ Glob.parse pattern = .ok glob := by
  rw [globOf]
  split <;> simp_all

/-- **An exclude set** holds the pattern of each text. -/
theorem ofPatterns_eq_ok_iff :
    ofPatterns patterns = .ok exclude ↔ List.Forall₂ Compiles patterns exclude := by
  have hsplit : List.Forall₂ Compiles patterns exclude ↔
      patterns.mapM globOf = .ok exclude ∧ Glob.nestingFault? exclude = none := by
    simp only [mapM_eq_ok_iff, globOf_eq_ok_iff, nestingFault?_eq_none_iff]
    constructor
    · intro h
      refine ⟨h.imp fun _ _ hcompiles => hcompiles.1, fun glob hmem => ?_⟩
      obtain ⟨index, hindex, rfl⟩ := List.getElem_of_mem hmem
      exact (h.get (h.length_eq ▸ hindex) hindex).2
    · rintro ⟨hparse, husable⟩
      induction hparse with
      | nil => exact .nil
      | cons hglob _ ih =>
          obtain ⟨hfirst, hrest⟩ := List.forall_mem_cons.1 husable
          exact .cons ⟨hglob, hfirst⟩ (ih hrest)
  rw [hsplit, ofPatterns]
  split
  · next failure hfailed => simp [hfailed]
  · next globs hglobs =>
    rw [hglobs]
    split
    · next fault hfault =>
      refine ⟨nofun, fun ⟨heq, hnone⟩ => ?_⟩
      obtain rfl := Except.ok.inj heq
      exact absurd hfault (by simp [hnone])
    · next hnone =>
      refine ⟨fun heq => ⟨heq ▸ rfl, ?_⟩, fun ⟨heq, _⟩ => by rw [Except.ok.inj heq]⟩
      rwa [← Except.ok.inj heq]

/-- Texts can be patterns together if each of them can be one. -/
theorem exists_ofPatterns_iff :
    (∃ exclude, ofPatterns patterns = .ok exclude) ↔
      ∀ pattern ∈ patterns, ∃ glob, Compiles pattern glob := by
  simp only [ofPatterns_eq_ok_iff]
  exact exists_forall₂_iff

/-- **An exclude set covers** what one of its patterns matches. -/
theorem covers_iff (h : ofPatterns patterns = .ok exclude) {path : Path} :
    exclude.covers path = true ↔ ∃ pattern ∈ patterns, Matches pattern path := by
  rw [ofPatterns_eq_ok_iff] at h
  rw [covers, List.any_eq_true]
  constructor
  · rintro ⟨glob, hmem, hmatch⟩
    obtain ⟨index, hindex, rfl⟩ := List.getElem_of_mem hmem
    exact ⟨_, List.getElem_mem (h.length_eq ▸ hindex), _,
      (h.get (h.length_eq ▸ hindex) hindex).1, hmatch⟩
  · rintro ⟨pattern, hmem, glob, hglob, hmatch⟩
    obtain ⟨index, hindex, rfl⟩ := List.getElem_of_mem hmem
    have hcompiled := (h.get hindex (h.length_eq ▸ hindex)).1
    obtain rfl := Except.ok.inj (hglob.symm.trans hcompiled)
    exact ⟨_, List.getElem_mem _, hmatch⟩

end ExcludeSet

/-! ### What is left out -/

namespace Scan

variable {fs : FileSystem} {root : Path} {patterns : List Text} {exclude : ExcludeSet}
  {front names : List Text}

variable (front) in
/-- Nothing is left out on the way down if no name begins with a dot and nothing on it is covered
by the patterns. -/
theorem kept_iff (hroot : root.text ≠ []) (hfront : ∀ name ∈ front, Path.IsFileName name)
    (hnames : ∀ name ∈ names, Path.IsFileName name) :
    Kept exclude root (root.descend front) names ↔
      (∀ name ∈ names, name.head? ≠ some '.') ∧ ∀ more, more <+: names → more ≠ [] →
        exclude.covers ⟨Text.join ['/'] (front ++ more)⟩ = false := by
  induction names generalizing front with
  | nil => simp [Kept]
  | cons name names ih =>
      obtain ⟨hname, hnames⟩ := List.forall_mem_cons.1 hnames
      have hfront' : ∀ other ∈ front ++ [name], Path.IsFileName other :=
        List.forall_mem_append.2 ⟨hfront, by simpa using hname⟩
      rw [Kept, ← Path.descend_concat, isHidden_descend hname,
        isExcluded_descend hroot ⟨by simp, hfront'⟩, ih (front ++ [name]) hfront' hnames,
        decide_eq_false_iff_not, List.forall_mem_cons]
      constructor
      · rintro ⟨hseen, hfirst, hothers, hrest⟩
        refine ⟨⟨hseen, hothers⟩, fun more hmore hne => ?_⟩
        obtain ⟨rest, rfl, hbehind⟩ := (List.prefix_cons_iff.1 hmore).resolve_left hne
        by_cases hlast : rest = []
        · rw [hlast]
          exact hfirst
        · rw [List.append_cons]
          exact hrest rest hbehind hlast
      · rintro ⟨⟨hseen, hothers⟩, hall⟩
        refine ⟨hseen, hall [name] ⟨names, rfl⟩ (List.cons_ne_nil _ _), hothers,
          fun more hmore _ => ?_⟩
        rw [← List.append_cons]
        exact hall (name :: more) (List.cons_prefix_cons.2 ⟨rfl, hmore⟩) (List.cons_ne_nil _ _)

/-! ### Candidates -/

/-- What a scan has to find: a file below the root, under names none of which begins with a dot,
where no pattern matches the path, from the root, of the file or of a directory on the way to it. -/
def IsCandidate (fs : FileSystem) (root : Path) (patterns : List Text) (path : Path) : Prop :=
  ∃ names, LeadsDown names ∧ path = root.join ⟨Text.join ['/'] names⟩ ∧ fs.isFile path = true ∧
    (∀ name ∈ names, name.head? ≠ some '.') ∧ ∀ front, front <+: names → front ≠ [] →
      ∀ pattern ∈ patterns, ¬ ExcludeSet.Matches pattern ⟨Text.join ['/'] front⟩

/-- A file is left over by two sets of patterns together if it is left over by each of them. -/
theorem isCandidate_append {more : List Text} {path : Path} :
    IsCandidate fs root (patterns ++ more) path ↔
      IsCandidate fs root patterns path ∧ IsCandidate fs root more path := by
  constructor
  · rintro ⟨names, hnames, hpath, hfile, hseen, hfree⟩
    exact ⟨⟨names, hnames, hpath, hfile, hseen, fun front hfront hne pattern hmem =>
        hfree front hfront hne pattern (List.mem_append_left _ hmem)⟩,
      names, hnames, hpath, hfile, hseen, fun front hfront hne pattern hmem =>
        hfree front hfront hne pattern (List.mem_append_right _ hmem)⟩
  · rintro ⟨⟨names, hnames, rfl, hfile, hseen, hfree⟩, others, hothers, hsame, -, -, hfreeToo⟩
    rw [← Path.descend_eq_join hnames.2 hnames.1,
      ← Path.descend_eq_join hothers.2 hothers.1] at hsame
    obtain rfl := Path.descend_injective hnames.2 hothers.2 hsame
    exact ⟨names, hnames, rfl, hfile, hseen, fun front hfront hne =>
      List.forall_mem_append.2 ⟨hfree front hfront hne, hfreeToo front hfront hne⟩⟩

/-- **Which files a scan finds.** -/
theorem mem_filesIn_iff (hnamed : fs.WellNamed)
    (hexclude : ExcludeSet.ofPatterns patterns = .ok exclude) {path : Path} :
    path ∈ filesIn fs exclude root (depthBound fs) root ↔
      fs.isDirectory root = true ∧ IsCandidate fs root patterns path := by
  have hleft : ∀ path, exclude.covers path = false ↔
      ∀ pattern ∈ patterns, ¬ ExcludeSet.Matches pattern path := by
    intro path
    rw [Bool.eq_false_iff, Ne, ExcludeSet.covers_iff hexclude]
    exact ⟨fun h pattern hmem hmatch => h ⟨pattern, hmem, hmatch⟩, fun h ⟨pattern, hmem, hmatch⟩ =>
      h pattern hmem hmatch⟩
  constructor
  · intro hpath
    have hdirectory := isDirectory_of_mem_filesIn hpath
    have hroot := (FileSystem.isDirectory_iff.1 hdirectory).2.1
    obtain ⟨names, hne, hnames, rfl, hfile, hkept⟩ := exists_kept_of_mem_filesIn hnamed hpath
    obtain ⟨hseen, hfree⟩ := (kept_iff [] hroot (by simp) hnames).1 hkept
    refine ⟨hdirectory, names, ⟨hne, hnames⟩, Path.descend_eq_join hnames hne root, hfile, hseen,
      fun more hmore hmoreNe => (hleft _).1 (hfree more hmore hmoreNe)⟩
  · rintro ⟨hdirectory, names, ⟨hne, hnames⟩, rfl, hfile, hseen, hfree⟩
    have hroot := (FileSystem.isDirectory_iff.1 hdirectory).2.1
    rw [← Path.descend_eq_join hnames hne] at hfile ⊢
    refine mem_filesIn (enough_depthBound fs root) hroot hne hnames ?_ hfile
    exact (kept_iff [] hroot (by simp) hnames).2
      ⟨hseen, fun more hmore hmoreNe => (hleft _).2 (hfree more hmore hmoreNe)⟩

/-! ### The order of listings -/

/-- The names in each directory are listed in some order, each of them once. -/
def IsListing (order : Path → List Text → List Text) : Prop :=
  ∀ dir names, (order dir names).Perm names

variable {order other : Path → List Text → List Text}

/-- In whatever order directories are listed, the same files are found in them. -/
theorem perm_filesBy (horder : IsListing order) (fs : FileSystem) (exclude : ExcludeSet)
    (root : Path) (depth : Nat) (dir : Path) :
    (filesBy order fs exclude root depth dir).Perm (filesIn fs exclude root depth dir) := by
  induction depth generalizing dir with
  | zero => exact .nil
  | succ depth ih =>
      rw [filesBy, filesIn]
      split
      · refine ((horder dir _).flatMap_right _).trans (List.Perm.flatMap_left _ fun name _ => ?_)
        rw [filesAt, filesAt]
        split_ifs
        · exact .nil
        · exact .nil
        · exact ih _
        · exact .refl _
        · exact .nil
      · exact .nil

/-- **The order in which directories are listed** makes no difference to what is found. -/
theorem files_listedBy (hnamed : fs.WellNamed) (horder : IsListing order) (root : Path)
    (exclude : ExcludeSet) :
    ∃ events, listedBy order fs root exclude =
      .ok ⟨Path.sort (filesIn fs exclude root (depthBound fs) root), events⟩ := by
  obtain ⟨events, hdirectory⟩ := files_directory order fs exclude root (depthBound fs) root
  have hperm := perm_filesBy horder fs exclude root (depthBound fs) root
  have hsorted : Path.sort (filesBy order fs exclude root (depthBound fs) root) =
      Path.sort (filesIn fs exclude root (depthBound fs) root) := by
    have hnodup : ((filesIn fs exclude root (depthBound fs) root).map Path.components).Nodup :=
      nodup_components_filesIn hnamed
    refine Path.eq_of_ascending
      (Path.ascending_sort ((hperm.map Path.components).nodup_iff.2 hnodup))
      (Path.ascending_sort hnodup) fun path => ?_
    rw [(Path.perm_sort _).mem_iff, (Path.perm_sort _).mem_iff, hperm.mem_iff]
  refine ⟨events, ?_⟩
  rw [listedBy, hdirectory, ← hsorted]

/-- What a scan finds, in ascending order. -/
theorem exists_listed (hnamed : fs.WellNamed)
    (hexclude : ExcludeSet.ofPatterns patterns = .ok exclude) (horder : IsListing order)
    (root : Path) :
    ∃ found, listedBy order fs root exclude = .ok found ∧
      found.files.Pairwise (fun p q => p.before q = true) ∧
      ∀ path, path ∈ found.files ↔
        fs.isDirectory root = true ∧ IsCandidate fs root patterns path := by
  obtain ⟨events, hlisted⟩ := files_listedBy hnamed horder root exclude
  refine ⟨_, hlisted, Path.ascending_sort (nodup_components_filesIn hnamed), fun path => ?_⟩
  rw [(Path.perm_sort _).mem_iff]
  exact mem_filesIn_iff hnamed hexclude

/-- **A scan finds exactly the candidates**, each once and in ascending order, whatever order the
directories are listed in; without a directory at its root it finds nothing. Patterns given in
another order, or several times, leave out the same; and two sets of patterns together leave over
what both of them leave over. -/
theorem finds_exactly (hnamed : fs.WellNamed)
    (hexclude : ExcludeSet.ofPatterns patterns = .ok exclude) (horder : IsListing order)
    (hother : IsListing other) (root : Path) :
    ∃ found, listedBy order fs root exclude = .ok found ∧
      found.files.Pairwise (fun p q => p.before q = true) ∧
      (∀ path, path ∈ found.files ↔
        fs.isDirectory root = true ∧ IsCandidate fs root patterns path) ∧
      (fs.isDirectory root = false → found.files = []) ∧
      (∀ same : List Text, (∀ pattern, pattern ∈ same ↔ pattern ∈ patterns) →
        ∃ excludeSame again, ExcludeSet.ofPatterns same = .ok excludeSame ∧
          listedBy other fs root excludeSame = .ok again ∧ again.files = found.files) ∧
      ∀ (more : List Text) (excludeMore : ExcludeSet),
        ExcludeSet.ofPatterns more = .ok excludeMore →
        ∃ foundMore excludeBoth foundBoth,
          listedBy other fs root excludeMore = .ok foundMore ∧
          ExcludeSet.ofPatterns (patterns ++ more) = .ok excludeBoth ∧
          listedBy other fs root excludeBoth = .ok foundBoth ∧
          foundBoth.files = found.files.filter fun path => decide (path ∈ foundMore.files) := by
  obtain ⟨found, hlisted, hascending, hmem⟩ := exists_listed hnamed hexclude horder root
  refine ⟨found, hlisted, hascending, hmem, fun hnot => ?_, fun same hsame => ?_,
    fun more excludeMore hmore => ?_⟩
  · refine List.eq_nil_iff_forall_not_mem.2 fun path hpath => ?_
    exact absurd ((hmem path).1 hpath).1 (by simp [hnot])
  · obtain ⟨excludeSame, hexcludeSame⟩ := ExcludeSet.exists_ofPatterns_iff.2 fun pattern hpattern =>
      ExcludeSet.exists_ofPatterns_iff.1 ⟨exclude, hexclude⟩ pattern ((hsame pattern).1 hpattern)
    obtain ⟨again, hagain, hascendingAgain, hmemAgain⟩ :=
      exists_listed hnamed hexcludeSame hother root
    refine ⟨excludeSame, again, hexcludeSame, hagain,
      Path.eq_of_ascending hascendingAgain hascending fun path => ?_⟩
    simp only [hmemAgain, hmem, IsCandidate, hsame]
  · obtain ⟨foundMore, hlistedMore, -, hmemMore⟩ := exists_listed hnamed hmore hother root
    obtain ⟨excludeBoth, hboth⟩ := ExcludeSet.exists_ofPatterns_iff.2 (List.forall_mem_append.2
      ⟨ExcludeSet.exists_ofPatterns_iff.1 ⟨exclude, hexclude⟩,
        ExcludeSet.exists_ofPatterns_iff.1 ⟨excludeMore, hmore⟩⟩)
    obtain ⟨foundBoth, hlistedBoth, hascendingBoth, hmemBoth⟩ :=
      exists_listed hnamed hboth hother root
    refine ⟨foundMore, excludeBoth, foundBoth, hlistedMore, hboth, hlistedBoth,
      Path.eq_of_ascending hascendingBoth (hascending.filter _) fun path => ?_⟩
    rw [List.mem_filter, decide_eq_true_eq, hmemBoth, hmem, hmemMore, isCandidate_append]
    exact and_and_left

/-- Guides and notes, some of them drafts or hidden. -/
def guidesAndDrafts : FileSystem :=
  .ofTree [["src".toList], ["src".toList, "a".toList], ["src".toList, ".old".toList],
      ["src".toList, "drafts".toList]]
    [(["src".toList], "b.kt".toList, []), (["src".toList], ".b.kt".toList, []),
      (["src".toList, "a".toList], "x.kt".toList, []),
      (["src".toList, "a".toList], "x.md".toList, []),
      (["src".toList, ".old".toList], "y.kt".toList, []),
      (["src".toList, "drafts".toList], "z.kt".toList, [])]

/-- Where directories are listed backwards, the drafts and the notes are left out nonetheless; and
so is the directory `a`, if that is asked for as well. -/
theorem finds_exactly_of_guidesAndDrafts :
    ∃ found both foundBoth,
      listedBy (fun _ names => names.reverse) guidesAndDrafts ⟨"src".toList⟩
        [⟨"drafts".toList.map .literal⟩, ⟨.anyBytes :: ".md".toList.map .literal⟩] = .ok found ∧
      found.files = [⟨"src/a/x.kt".toList⟩, ⟨"src/b.kt".toList⟩] ∧
      (∀ path, path ∈ found.files ↔ guidesAndDrafts.isDirectory ⟨"src".toList⟩ = true ∧
        IsCandidate guidesAndDrafts ⟨"src".toList⟩ ["drafts".toList, "*.md".toList] path) ∧
      ExcludeSet.ofPatterns ["drafts".toList, "*.md".toList, "a".toList] = .ok both ∧
      below guidesAndDrafts ⟨"src".toList⟩ both = .ok foundBoth ∧
      foundBoth.files = [⟨"src/b.kt".toList⟩] := by
  have hexclude : ExcludeSet.ofPatterns ["drafts".toList, "*.md".toList] =
      .ok [⟨"drafts".toList.map .literal⟩, ⟨.anyBytes :: ".md".toList.map .literal⟩] := by cbv
  have hmore : ExcludeSet.ofPatterns ["a".toList] = .ok [⟨[.literal 'a']⟩] := by cbv
  obtain ⟨found, hfound, -, hmem, -, -, htogether⟩ := @finds_exactly guidesAndDrafts _ _
    (fun _ names => names.reverse) (fun _ names => names) (by decide +kernel) hexclude
    (fun _ names => names.reverse_perm) (fun _ names => .refl names) ⟨"src".toList⟩
  obtain ⟨foundMore, both, foundBoth, hfoundMore, hboth, hfoundBoth, hfiles⟩ := htogether _ _ hmore
  have hlisted : listedBy (fun _ names => names.reverse) guidesAndDrafts ⟨"src".toList⟩
      [⟨"drafts".toList.map .literal⟩, ⟨.anyBytes :: ".md".toList.map .literal⟩] =
      .ok ⟨[⟨"src/a/x.kt".toList⟩, ⟨"src/b.kt".toList⟩],
        [.excluded ⟨"src/drafts".toList⟩, .excluded ⟨"src/a/x.md".toList⟩]⟩ := by decide +kernel
  have hlistedMore : listedBy (fun _ names => names) guidesAndDrafts ⟨"src".toList⟩
      [⟨[.literal 'a']⟩] =
      .ok ⟨[⟨"src/b.kt".toList⟩, ⟨"src/drafts/z.kt".toList⟩], [.excluded ⟨"src/a".toList⟩]⟩ := by
    decide +kernel
  obtain rfl := Except.ok.inj (hfound.symm.trans hlisted)
  obtain rfl := Except.ok.inj (hfoundMore.symm.trans hlistedMore)
  exact ⟨_, both, foundBoth, hfound, rfl, hmem, hboth, hfoundBoth, hfiles.trans (by decide +kernel)⟩

end Scan

end Guidebook
