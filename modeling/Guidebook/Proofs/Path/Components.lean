import Guidebook.Path.Basic
import Guidebook.Proofs.Text.Pieces
import Mathlib.Data.List.DropRight

/-!
# The Components of Paths

What a path says, piece by piece, when paths are put together, taken apart, and seen from each
other. A path is read off its text by its anchor and the segments that speak; joining paths puts the
segments one behind the other, and a path seen from another has the components that are left.

## Main results

* `Path.components_eq`: the components are those of the anchor and of all segments of the text.
* `Path.components_join`: the components of a path read from within another.
* `Path.components_build`: taking apart what has been put together.
* `Path.relativeTo?_of_components`, `Path.components_of_relativeTo?`: **a path that goes on from
  another** has the rest of its components, seen from it.
* `Path.exists_relativeTo?_file`: how a file in a directory below a root is written, seen from it.
-/

namespace Guidebook

namespace Path

/-! ### Segments that speak -/

/-- The components that segments stand for. -/
def spoken (segments : List Text) : List Component :=
  segments.filterMap component?

/-- The components of segments in two parts are those of both. -/
theorem spoken_append (first second : List Text) :
    spoken (first ++ second) = spoken first ++ spoken second :=
  List.filterMap_append

/-- A segment stands for no component exactly if it is silent. -/
theorem component?_eq_none_iff {segment : Text} :
    component? segment = none ↔ isSilent segment = true := by
  unfold component?
  split
  · next h => simp [h]
  · next h => split <;> simp [h]

/-- A silent segment adds nothing. -/
theorem spoken_cons_of_silent {segment : Text} (h : isSilent segment = true)
    (segments : List Text) : spoken (segment :: segments) = spoken segments := by
  rw [spoken, List.filterMap_cons, component?_eq_none_iff.2 h]
  rfl

/-- Behind the anchor, nothing says where a path starts. -/
theorem not_mem_spoken (segments : List Text) :
    .root ∉ spoken segments ∧ .here ∉ spoken segments := by
  have hsegment : ∀ segment, component? segment ≠ some .root ∧ component? segment ≠ some .here := by
    intro segment
    unfold component?
    split
    · simp
    · split <;> simp
  constructor
  all_goals
    intro hmem
    obtain ⟨segment, -, hcomponent⟩ := List.mem_filterMap.1 hmem
  · exact (hsegment segment).1 hcomponent
  · exact (hsegment segment).2 hcomponent

/-- Silent segments stand for nothing. -/
theorem spoken_eq_nil {segments : List Text} (h : ∀ s ∈ segments, isSilent s = true) :
    spoken segments = [] :=
  List.filterMap_eq_nil_iff.2 fun s hs => component?_eq_none_iff.2 (h s hs)

/-- Without the silent segments in front, the same is said. -/
theorem spoken_dropWhile (segments : List Text) :
    spoken (segments.dropWhile isSilent) = spoken segments := by
  conv_rhs => rw [← List.takeWhile_append_dropWhile (p := isSilent) (l := segments), spoken_append,
    spoken_eq_nil fun s hs => List.mem_takeWhile_imp hs]
  rfl

/-- Without the silent segments at the end, the same is said. -/
theorem spoken_dropSilentEnd (segments : List Text) :
    spoken (dropSilentEnd segments) = spoken segments := by
  have hend : segments = dropSilentEnd segments ++ segments.rtakeWhile isSilent :=
    (List.rdropWhile_append_rtakeWhile (p := isSilent) (l := segments)).symm
  conv_rhs => rw [hend, spoken_append, spoken_eq_nil fun s hs => List.mem_rtakeWhile_imp hs]
  rw [List.append_nil]

/-- To leave out segments up to some that speak is to leave out what these say. -/
theorem spoken_dropSpoken (n : Nat) (segments : List Text) :
    spoken (dropSpoken n segments) = (spoken segments).drop n := by
  fun_induction dropSpoken n segments with
  | case1 segments => rfl
  | case2 n => rfl
  | case3 n segment segments hsilent ih => rw [ih, spoken_cons_of_silent hsilent]
  | case4 n segment segments hspeaks ih =>
      cases hsegment : component? segment with
      | none => exact absurd (component?_eq_none_iff.1 hsegment) hspeaks
      | some component =>
          rw [ih, spoken, spoken, List.filterMap_cons, hsegment]
          rfl

/-! ### Anchors -/

/-- The texts of paths that begin with neither `/` nor `./`. -/
def IsPlain (t : Text) : Prop :=
  (∀ rest, t ≠ '/' :: rest) ∧ t ≠ ['.'] ∧ ∀ rest, t ≠ '.' :: '/' :: rest

/-- A text that begins with neither `/` nor `./` is all segments. -/
theorem split_of_isPlain {t : Text} (h : IsPlain t) :
    (⟨t⟩ : Path).split = (.plain, Text.splitOn '/' t) := by
  unfold split
  split
  · next rest heq => exact absurd heq (h.1 rest)
  · next heq => exact absurd heq h.2.1
  · next rest heq => exact absurd heq (h.2.2 rest)
  · rfl

/-- A path without an anchor begins with neither `/` nor `./`. -/
theorem isPlain_of_split {p : Path} (h : p.split.1 = .plain) : IsPlain p.text := by
  obtain ⟨t⟩ := p
  refine ⟨?_, ?_, ?_⟩ <;> intros <;> rintro rfl <;> cases h

/-- How a path can begin. -/
theorem text_cases (t : Text) :
    (∃ rest, t = '/' :: rest) ∨ t = ['.'] ∨ (∃ rest, t = '.' :: '/' :: rest) ∨ IsPlain t := by
  by_cases hroot : ∃ rest, t = '/' :: rest
  · exact .inl hroot
  by_cases hdot : t = ['.']
  · exact .inr (.inl hdot)
  by_cases hhere : ∃ rest, t = '.' :: '/' :: rest
  · exact .inr (.inr (.inl hhere))
  · exact .inr (.inr (.inr ⟨not_exists.1 hroot, hdot, not_exists.1 hhere⟩))

/-- **The components** are those of the anchor and of all segments of the text. -/
theorem components_eq (p : Path) :
    p.components = p.split.1.components ++ spoken (Text.splitOn '/' p.text) := by
  obtain ⟨t⟩ := p
  have hempty : isSilent [] = true := by decide
  have hdot : isSilent ['.'] = true := by decide
  rcases text_cases t with ⟨rest, rfl⟩ | rfl | ⟨rest, rfl⟩ | hplain
  · exact congrArg (Component.root :: ·) (spoken_cons_of_silent hempty _).symm
  · rfl
  · exact congrArg (Component.here :: ·) (spoken_cons_of_silent hdot _).symm
  · rw [components, split_of_isPlain hplain]
    rfl

/-- What follows a slash does not change the anchor. -/
theorem anchor_append {t : Text} (ht : t ≠ []) (s : Text) :
    (⟨t ++ '/' :: s⟩ : Path).split.1 = (⟨t⟩ : Path).split.1 := by
  rcases text_cases t with ⟨rest, rfl⟩ | rfl | ⟨rest, rfl⟩ | hplain
  · rfl
  · rfl
  · rfl
  · have happend : IsPlain (t ++ '/' :: s) := by
      obtain ⟨c, rest, rfl⟩ := List.exists_cons_of_ne_nil ht
      obtain ⟨hroot, hdot, hhere⟩ := hplain
      refine ⟨fun tail heq => ?_, fun heq => ?_, fun tail heq => ?_⟩
      · exact hroot rest (by rw [(List.cons.inj heq).1])
      · have hlength := congrArg List.length heq
        simp at hlength
      · obtain ⟨rfl, htail⟩ := List.cons.inj heq
        cases rest with
        | nil => exact hdot rfl
        | cons d rest => exact hhere rest (by rw [(List.cons.inj htail).1])
    rw [split_of_isPlain hplain, split_of_isPlain happend]

/-- The segments behind a slash are added to what is said before it. -/
theorem components_append {t : Text} (ht : t ≠ []) (s : Text) :
    (⟨t ++ '/' :: s⟩ : Path).components =
      (⟨t⟩ : Path).components ++ spoken (Text.splitOn '/' s) := by
  rw [components_eq, components_eq, anchor_append ht, Text.splitOn_append, spoken_append,
    List.append_assoc]

/-! ### Putting paths together -/

/-- Behind a path that is not empty, paths that are not absolute stand behind a slash. -/
theorem join_eq {p : Path} (hp : p.text ≠ []) :
    ∃ t, (p = ⟨t⟩ ∧ t ≠ [] ∨ p = ⟨t ++ ['/']⟩) ∧
      ∀ q : Path, q.isAbsolute = false → p.join q = ⟨t ++ '/' :: q.text⟩ := by
  obtain ⟨t⟩ := p
  by_cases hslash : t.getLast? = some '/'
  · obtain ⟨front, rfl⟩ := List.getLast?_eq_some_iff.1 hslash
    refine ⟨front, .inr rfl, fun q hq => ?_⟩
    simp [join, hq]
  · have hend : ¬ (t = [] ∨ t.getLast? = some '/') := not_or.2 ⟨hp, hslash⟩
    refine ⟨t, .inl ⟨rfl, hp⟩, fun q hq => ?_⟩
    simp [join, hq, hend]

/-- Read from within an empty path, a path stays what it is. -/
theorem join_of_empty {p : Path} (hp : p.text = []) (q : Path) : p.join q = q := by
  rw [join]
  split
  · rfl
  · rw [if_pos (.inl hp), hp]
    rfl

/-- **Joining** adds what the second path says. -/
theorem components_join {p q : Path} (hp : p.text ≠ []) (hq : q.isAbsolute = false) :
    (p.join q).components = p.components ++ spoken (Text.splitOn '/' q.text) := by
  obtain ⟨t, ⟨rfl, hne⟩ | rfl, hjoin⟩ := join_eq hp
  · rw [hjoin q hq, components_append hne]
  · rw [hjoin q hq]
    by_cases hne : t = []
    · subst hne
      rfl
    · rw [components_append hne, components_append hne, List.append_assoc]
      rfl

/-- A path that is not absolute leaves the other where it starts. -/
theorem isAbsolute_join (p : Path) {q : Path} (hq : q.isAbsolute = false) :
    (p.join q).isAbsolute = p.isAbsolute := by
  by_cases hp : p.text = []
  · obtain ⟨t⟩ := p
    rw [join_of_empty hp, hq, show t = [] from hp]
    rfl
  · obtain ⟨t, ⟨rfl, hne⟩ | rfl, hjoin⟩ := join_eq hp
    · rw [hjoin q hq, isAbsolute, isAbsolute, anchor_append hne]
    · rw [hjoin q hq]
      by_cases hne : t = []
      · subst hne
        rfl
      · rw [isAbsolute, isAbsolute, anchor_append hne, anchor_append hne]

/-- **Joining is associative** for paths that are not absolute. -/
theorem join_assoc (p : Path) {q r : Path} (hq : q.isAbsolute = false) (hr : r.isAbsolute = false) :
    (p.join q).join r = p.join (q.join r) := by
  have hinner : (q.join r).isAbsolute = false := (isAbsolute_join q hr).trans hq
  by_cases hp : p.text = []
  · rw [join_of_empty hp, join_of_empty hp]
  · obtain ⟨t, -, hjoin⟩ := join_eq hp
    have hlast : (t ++ '/' :: q.text).getLast? = some '/' ↔
        q.text = [] ∨ q.text.getLast? = some '/' := by
      rcases List.eq_nil_or_concat' q.text with hnil | ⟨front, c, hconcat⟩
      · simp [hnil]
      · rw [hconcat, ← List.cons_append, ← List.append_assoc, List.getLast?_concat,
          List.getLast?_concat]
        simp
    have hne : t ++ '/' :: q.text ≠ [] := by simp
    rw [hjoin q hq, hjoin _ hinner, join, join, hr, if_neg Bool.false_ne_true,
      if_neg Bool.false_ne_true]
    by_cases hend : q.text = [] ∨ q.text.getLast? = some '/'
    · rw [if_pos (.inr (hlast.2 hend)), if_pos hend]
      simp
    · rw [if_neg (not_or.2 ⟨hne, hlast.not.2 hend⟩), if_neg hend]
      simp

/-! ### Taking paths apart -/

/-- The segments can follow the anchor: none holds a slash, and where no anchor stands before them,
the first speaks. -/
structure Follows (anchor : Anchor) (segments : List Text) : Prop where
  clean : ∀ s ∈ segments, '/' ∉ s
  speaks : anchor = .plain → ∀ s ∈ segments.head?, isSilent s = false

/-- Joined segments of which the first speaks begin with neither `/` nor `./`. -/
theorem isPlain_join {segments : List Text} (h : Follows .plain segments) :
    IsPlain (Text.join ['/'] segments) := by
  cases segments with
  | nil => exact ⟨fun _ heq => (nomatch heq), by decide, fun _ heq => (nomatch heq)⟩
  | cons s segments =>
      have hspeaks := h.speaks rfl s rfl
      have hclean := h.clean s List.mem_cons_self
      have hcut := Text.splitOn_join (List.cons_ne_nil s segments) h.clean
      -- what begins with `/` or `./` is cut into segments of which the first is silent
      have hfirst : ∀ {silent rest}, isSilent silent = true →
          Text.splitOn '/' (Text.join ['/'] (s :: segments)) ≠ silent :: rest := by
        intro silent rest hsilent heq
        rw [hcut] at heq
        rw [(List.cons.inj heq).1, hsilent] at hspeaks
        cases hspeaks
      refine ⟨fun rest heq => ?_, fun heq => ?_, fun rest heq => ?_⟩
      · exact hfirst rfl (by rw [heq, Text.splitOn, if_pos rfl])
      · exact hfirst rfl (by rw [heq]; rfl)
      · exact hfirst rfl (by rw [heq]; rfl)

/-- Cutting joined segments gives them back, but for the silent segment of an empty text. -/
theorem spoken_splitOn_join {segments : List Text} (h : ∀ s ∈ segments, '/' ∉ s) :
    spoken (Text.splitOn '/' (Text.join ['/'] segments)) = spoken segments := by
  cases segments with
  | nil => rfl
  | cons s segments => rw [Text.splitOn_join (List.cons_ne_nil s segments) h]

/-- **The anchor is read back** from a path that has been put together. -/
theorem anchor_build {anchor : Anchor} {segments : List Text} (h : Follows anchor segments) :
    (build anchor segments).split.1 = anchor := by
  cases anchor with
  | root => rfl
  | here => cases segments <;> rfl
  | plain => exact congrArg Prod.fst (split_of_isPlain (isPlain_join h))

/-- **Putting together and taking apart**: the path says what its anchor and its segments say. -/
theorem components_build {anchor : Anchor} {segments : List Text} (h : Follows anchor segments) :
    (build anchor segments).components = anchor.components ++ spoken segments := by
  rw [components_eq, anchor_build h]
  congr 1
  cases anchor with
  | root => exact (spoken_cons_of_silent (by decide) _).trans (spoken_splitOn_join h.clean)
  | here =>
      cases segments with
      | nil => rfl
      | cons s segments =>
          have hdot : isSilent ['.'] = true := by decide
          exact (spoken_cons_of_silent hdot _).trans (spoken_splitOn_join h.clean)
  | plain => exact spoken_splitOn_join h.clean

/-- Leaving out the silent segments at the end leaves a front. -/
theorem dropSilentEnd_front (segments : List Text) : dropSilentEnd segments <+: segments :=
  List.rdropWhile_prefix isSilent segments

namespace Follows

variable {anchor : Anchor} {segments : List Text}

/-- What is left of segments at their front can follow the anchor too. -/
theorem of_front {front : List Text} (h : Follows anchor segments) (hfront : front <+: segments) :
    Follows anchor front where
  clean := fun s hs => h.clean s (hfront.mem hs)
  speaks := by
    intro hplain s hs
    obtain ⟨rest, rfl⟩ := hfront
    exact h.speaks hplain s (by rw [List.head?_append, Option.mem_def.1 hs]; rfl)

/-- Segments that can follow an anchor still can without the silent ones at their end. -/
theorem dropSilentEnd (h : Follows anchor segments) :
    Follows anchor (Path.dropSilentEnd segments) :=
  h.of_front (dropSilentEnd_front segments)

/-- Behind silent segments, the rest speaks first. -/
theorem dropWhile (h : ∀ s ∈ segments, '/' ∉ s) : Follows anchor (segments.dropWhile isSilent) where
  clean := fun s hs => h s ((List.dropWhile_suffix isSilent).mem hs)
  speaks := by
    intro _ s hs
    have hhead := List.head?_dropWhile_not isSilent segments
    rw [Option.mem_def.1 hs] at hhead
    exact hhead

end Follows

/-- The segments of a path hold no slash. -/
theorem not_mem_of_mem_split {p : Path} {s : Text} (h : s ∈ p.split.2) : '/' ∉ s := by
  obtain ⟨t⟩ := p
  rcases text_cases t with ⟨rest, rfl⟩ | rfl | ⟨rest, rfl⟩ | hplain
  · exact Text.not_mem_of_mem_splitOn h
  · exact absurd h List.not_mem_nil
  · exact Text.not_mem_of_mem_splitOn h
  · rw [split_of_isPlain hplain] at h
    exact Text.not_mem_of_mem_splitOn h

/-- A text that begins with neither `/` nor `./` begins with a segment that speaks. -/
theorem speaks_of_isPlain {t : Text} (h : IsPlain t) (ht : t ≠ []) :
    ∀ s ∈ (Text.splitOn '/' t).head?, isSilent s = false := by
  intro s hs
  obtain ⟨c, rest, rfl⟩ := List.exists_cons_of_ne_nil ht
  have hc : c ≠ '/' := by
    rintro rfl
    exact h.1 rest rfl
  obtain ⟨piece, pieces, hrest, hcut⟩ := Text.splitOn_cons_of_ne hc rest
  rw [hcut, List.head?_cons, Option.mem_some_iff] at hs
  subst hs
  by_contra hsilent
  have hdot : c = '.' ∧ piece = [] := by simpa [isSilent] using hsilent
  obtain ⟨rfl, rfl⟩ := hdot
  have hjoin := Text.join_splitOn '/' rest
  rw [hrest] at hjoin
  cases pieces with
  | nil => exact h.2.1 (by rw [← hjoin]; rfl)
  | cons next pieces => exact h.2.2 _ (by rw [← hjoin]; rfl)

/-- What a text that begins with neither `/` nor `./` says begins with its first segment. -/
theorem exists_components_of_isPlain {t : Text} (h : IsPlain t) (ht : t ≠ []) :
    ∃ segment segments component, Text.splitOn '/' t = segment :: segments ∧
      component? segment = some component ∧
      (⟨t⟩ : Path).components = component :: spoken segments := by
  obtain ⟨segment, segments, hcut⟩ := List.exists_cons_of_ne_nil (Text.splitOn_ne_nil '/' t)
  have hspeaks : isSilent segment = false := speaks_of_isPlain h ht segment (by rw [hcut]; rfl)
  obtain ⟨component, hcomponent⟩ := Option.ne_none_iff_exists'.1
    (component?_eq_none_iff.not.2 (Bool.eq_false_iff.1 hspeaks))
  refine ⟨segment, segments, component, hcut, hcomponent, ?_⟩
  rw [components_eq, split_of_isPlain h, hcut, spoken, List.filterMap_cons, hcomponent]
  rfl

/-- A path that is not empty says something. -/
theorem components_ne_nil {p : Path} (h : p.text ≠ []) : p.components ≠ [] := by
  obtain ⟨t⟩ := p
  rcases text_cases t with ⟨rest, rfl⟩ | rfl | ⟨rest, rfl⟩ | hplain
  · exact List.cons_ne_nil Component.root _
  · exact List.cons_ne_nil Component.here _
  · exact List.cons_ne_nil Component.here _
  · obtain ⟨_, segments, component, -, -, hsaid⟩ := exists_components_of_isPlain hplain h
    rw [hsaid]
    exact List.cons_ne_nil component _

/-- The segments of a path can follow its anchor again, once the silent ones at the end are left
out. -/
theorem follows_split (p : Path) : Follows p.split.1 (dropSilentEnd p.split.2) := by
  have hfront := dropSilentEnd_front p.split.2
  refine ⟨fun s hs => not_mem_of_mem_split (hfront.mem hs), fun hplain s hs => ?_⟩
  have hp := isPlain_of_split hplain
  have hsegments : p.split.2 = Text.splitOn '/' p.text := congrArg Prod.snd (split_of_isPlain hp)
  rw [hsegments] at hs hfront
  by_cases ht : p.text = []
  · rw [ht] at hs
    cases hs
  · refine speaks_of_isPlain hp ht s ?_
    obtain ⟨rest, hrest⟩ := hfront
    rw [← hrest, List.head?_append, Option.mem_def.1 hs]
    rfl

/-- What is left of segments stands at their end. -/
theorem dropSpoken_suffix (n : Nat) (segments : List Text) :
    dropSpoken n segments <:+ segments := by
  fun_induction dropSpoken n segments with
  | case1 segments => exact List.suffix_rfl
  | case2 n => exact List.suffix_rfl
  | case3 n segment segments hsilent ih => exact ih.trans (List.suffix_cons _ _)
  | case4 n segment segments hspeaks ih => exact ih.trans (List.suffix_cons _ _)

/-- What is left of segments behind the first ones that speak. -/
theorem components_rest (n : Nat) {segments : List Text} (h : ∀ s ∈ segments, '/' ∉ s) :
    (build .plain (dropSilentEnd ((dropSpoken n segments).dropWhile isSilent))).components =
      (spoken segments).drop n := by
  have hclean : ∀ s ∈ dropSpoken n segments, '/' ∉ s :=
    fun s hs => h s ((dropSpoken_suffix n segments).mem hs)
  rw [components_build (Follows.dropWhile hclean).dropSilentEnd, spoken_dropSilentEnd,
    spoken_dropWhile, spoken_dropSpoken]
  rfl

/-- **A path that goes on from another** has the rest of its components, seen from it. -/
theorem relativeTo?_of_components {p root : Path} {more : List Component}
    (h : p.components = root.components ++ more) :
    ∃ rel, p.relativeTo? root = some rel ∧ rel.components = more := by
  have hroot : root.components.isPrefixOf p.components = true :=
    List.isPrefixOf_iff_prefix.2 ⟨more, h.symm⟩
  have hmore : (p.split.1.components ++ spoken p.split.2).drop root.components.length = more :=
    (congrArg (List.drop _) h).trans List.drop_left
  have hfollows := follows_split p
  have hclean : ∀ s ∈ p.split.2, '/' ∉ s := fun s hs => not_mem_of_mem_split hs
  rw [relativeTo?, if_pos hroot, ← hmore]
  generalize root.components.length = n
  generalize p.split = split at hfollows hclean
  obtain ⟨anchor, segments⟩ := split
  cases n with
  | zero =>
      refine ⟨_, rfl, ?_⟩
      rw [components_build hfollows, spoken_dropSilentEnd]
      rfl
  | succ n =>
      cases anchor with
      | plain => exact ⟨_, rfl, components_rest (n + 1) hclean⟩
      | root => exact ⟨_, rfl, components_rest n hclean⟩
      | here => exact ⟨_, rfl, components_rest n hclean⟩

/-- **A path does not lie below a root** exactly if its components do not begin with those of the
root. -/
theorem relativeTo?_eq_none_iff {p root : Path} :
    p.relativeTo? root = none ↔ ¬ root.components <+: p.components := by
  rw [relativeTo?, ← List.isPrefixOf_iff_prefix]
  split
  · next h =>
    simp only [h, not_true_eq_false, iff_false]
    split <;> simp
  · next h => simp [h]

/-- A path says what its root says, and behind that, what it says seen from there. -/
theorem components_of_relativeTo? {p root relative : Path}
    (h : p.relativeTo? root = some relative) :
    p.components = root.components ++ relative.components := by
  have hprefix : root.components <+: p.components := by
    by_contra hnot
    rw [relativeTo?_eq_none_iff.2 hnot] at h
    cases h
  obtain ⟨more, hmore⟩ := hprefix
  obtain ⟨found, hfound, hcomponents⟩ := relativeTo?_of_components hmore.symm
  obtain rfl := Option.some.inj (hfound.symm.trans h)
  rw [hcomponents, hmore]

/-- The way up does not change where a path starts, unless it leads to where we are. -/
theorem isAbsolute_parent? {p q : Path} (h : p.parent? = some q) (hp : p.isAbsolute = false) :
    q.isAbsolute = false := by
  have hfollows := follows_split p
  have hanchor : p.split.1 ≠ .root := of_decide_eq_false hp
  unfold parent? at h
  generalize p.split = split at h hfollows hanchor
  obtain ⟨anchor, segments⟩ := split
  have hbuild : ∀ front : List Text, front <+: dropSilentEnd segments →
      (build anchor (dropSilentEnd front)).isAbsolute = false := by
    intro front hfront
    have hleft := (hfollows.of_front hfront).dropSilentEnd
    rw [isAbsolute, anchor_build hleft]
    exact decide_eq_false hanchor
  simp only at h
  split at h
  · rw [← Option.some.inj h]
    rfl
  · simp at h
  · rw [← Option.some.inj h]
    exact hbuild _ (List.dropLast_prefix _)

/-! ### Files in directories -/

/-- A segment that names a file: it holds no slash and is none of the segments with a meaning of
their own. -/
structure IsFileName (name : Text) : Prop where
  clean : '/' ∉ name
  speaks : isSilent name = false
  notUp : name ≠ ['.', '.']

instance (name : Text) : Decidable (IsFileName name) :=
  decidable_of_iff ('/' ∉ name ∧ isSilent name = false ∧ name ≠ ['.', '.'])
    ⟨fun h => ⟨h.1, h.2.1, h.2.2⟩, fun h => ⟨h.clean, h.speaks, h.notUp⟩⟩

namespace IsFileName

variable {name : Text}

/-- The name of a file is no silent segment. -/
theorem ne_of_isSilent (h : IsFileName name) {segment : Text} (hsegment : isSilent segment = true) :
    name ≠ segment := by
  rintro rfl
  rw [h.speaks] at hsegment
  cases hsegment

/-- The name of a file is one segment. -/
theorem splitOn (h : IsFileName name) : Text.splitOn '/' name = [name] :=
  Text.splitOn_of_not_mem h.clean

/-- The name of a file says a name. -/
theorem component? (h : IsFileName name) : component? name = some (.name name) := by
  simp [Path.component?, h.speaks, h.notUp]

/-- By itself, the name of a file says a name and nothing else. -/
theorem spoken (h : IsFileName name) : spoken [name] = [.name name] := by
  rw [Path.spoken, List.filterMap_cons, h.component?]
  rfl

/-- The name of a file begins with neither `/` nor `./`. -/
theorem isPlain (h : IsFileName name) : IsPlain name := by
  obtain ⟨hclean, hspeaks, -⟩ := h
  rcases text_cases name with ⟨rest, rfl⟩ | rfl | ⟨rest, rfl⟩ | hplain
  · simp at hclean
  · simp [isSilent] at hspeaks
  · simp at hclean
  · exact hplain

/-- The name of a file starts where we are. -/
theorem isAbsolute (h : IsFileName name) : (⟨name⟩ : Path).isAbsolute = false := by
  rw [Path.isAbsolute, split_of_isPlain h.isPlain]
  rfl

end IsFileName

/-- The segments with a meaning of their own are at most two characters long. -/
theorem isFileName_of_length {name : Text} (hclean : '/' ∉ name) (hlong : 2 < name.length) :
    IsFileName name := by
  have hne : ∀ short : Text, short.length ≤ 2 → name ≠ short := by
    rintro short hshort rfl
    omega
  exact {
    clean := hclean
    speaks := by simp [isSilent, hne [] (by decide), hne ['.'] (by decide)]
    notUp := hne _ (by decide) }

/-- A segment that speaks of a name is one. -/
theorem isFileName_of_mem_spoken {segments : List Text} {name : Text}
    (h : ∀ s ∈ segments, '/' ∉ s) (hname : .name name ∈ spoken segments) : IsFileName name := by
  obtain ⟨segment, hsegment, hcomponent⟩ := List.mem_filterMap.1 hname
  rw [component?] at hcomponent
  split at hcomponent
  · cases hcomponent
  · next hspeaks =>
    split at hcomponent
    · cases hcomponent
    · next hup =>
      obtain rfl : segment = name := by simpa using hcomponent
      exact ⟨h segment hsegment, Bool.not_eq_true _ ▸ hspeaks, hup⟩

/-- The last component of a path that ends with a name. -/
theorem getLast?_components {p : Path} {name : Text} (h : p.fileName? = some name) :
    p.components.getLast? = some (.name name) := by
  unfold fileName? at h
  split at h
  · next n hlast => rw [hlast, Option.some.inj h]
  · cases h

/-- The last component, if it is a name, is the name of a file. -/
theorem isFileName_of_fileName? {p : Path} {name : Text} (h : p.fileName? = some name) :
    IsFileName name := by
  have hlast : .name name ∈ p.components := List.mem_of_getLast? (getLast?_components h)
  rw [components_eq, List.mem_append] at hlast
  refine isFileName_of_mem_spoken (fun s hs => Text.not_mem_of_mem_splitOn hs)
    (hlast.resolve_left fun hanchor => ?_)
  cases hcase : p.split.1 <;> simp [hcase, Anchor.components] at hanchor

/-- A path to a file in a directory says the directory and the name. -/
theorem components_file (directory : Path) {name : Text} (h : IsFileName name) :
    (directory.join ⟨name⟩).components = directory.components ++ [.name name] := by
  obtain ⟨t⟩ := directory
  by_cases ht : t = []
  · have hempty : (⟨t⟩ : Path).components = [] := by
      rw [ht]
      rfl
    rw [join_of_empty ht, components_eq, split_of_isPlain h.isPlain, h.splitOn, h.spoken, hempty]
    rfl
  · rw [components_join ht h.isAbsolute, h.splitOn, h.spoken]

/-- How a component is written, if it is. -/
def shown? : Component → Option Text
  | .root => some []
  | .here => none
  | .up => some ['.', '.']
  | .name n => some n

/-- The components of a path, as they are written between slashes. -/
def shown (p : Path) : List Text :=
  p.components.filterMap shown?

/-- A path with single slashes joins what it shows. -/
theorem slashed_eq (p : Path) : p.slashed = Text.join ['/'] p.shown := by
  rw [slashed, shown]
  congr 2

/-- What is shown of a path are slashes, dots and its names. -/
theorem mem_slashed {p : Path} {c : Char} (h : c ∈ p.slashed) :
    c = '/' ∨ c = '.' ∨ ∃ name ∈ p.names, c ∈ name := by
  rw [slashed_eq] at h
  rcases Text.mem_join h with hslash | ⟨piece, hpiece, hc⟩
  · exact .inl (List.mem_singleton.1 hslash)
  · right
    obtain ⟨component, hcomponent, hshown⟩ := List.mem_filterMap.1 hpiece
    cases component with
    | root =>
        obtain rfl := Option.some.inj hshown
        cases hc
    | here => cases hshown
    | up =>
        obtain rfl := Option.some.inj hshown
        left
        simpa using hc
    | name n =>
        obtain rfl := Option.some.inj hshown
        exact .inr ⟨n, List.mem_filterMap.2 ⟨_, hcomponent, rfl⟩, hc⟩

/-- The names of a path are written in it. -/
theorem mem_of_mem_names {p : Path} {name : Text} {c : Char} (h : name ∈ p.names) (hc : c ∈ name) :
    c ∈ p.text := by
  obtain ⟨component, hcomponent, hname⟩ := List.mem_filterMap.1 h
  cases component with
  | root => cases hname
  | here => cases hname
  | up => cases hname
  | name n =>
      obtain rfl := Option.some.inj hname
      rw [components_eq, List.mem_append] at hcomponent
      rcases hcomponent with hanchor | hspoken
      · cases hcase : p.split.1 <;> simp [hcase, Anchor.components] at hanchor
      · obtain ⟨segment, hsegment, hspeaks⟩ := List.mem_filterMap.1 hspoken
        rw [component?] at hspeaks
        split at hspeaks
        · cases hspeaks
        · split at hspeaks
          · cases hspeaks
          · obtain rfl := Component.name.inj (Option.some.inj hspeaks)
            exact Text.mem_of_mem_splitOn hsegment hc

/-- Nothing is shown that is not written, but for slashes and dots. -/
theorem mem_text_of_mem_slashed {p : Path} {c : Char} (h : c ∈ p.slashed) (hslash : c ≠ '/')
    (hdot : c ≠ '.') : c ∈ p.text := by
  rcases mem_slashed h with habsurd | habsurd | ⟨name, hname, hc⟩
  · exact absurd habsurd hslash
  · exact absurd habsurd hdot
  · exact mem_of_mem_names hname hc

/-- A path that is not absolute says its segments, and before them at most that it starts where we
are. -/
theorem exists_components_of_not_isAbsolute {p : Path} (hp : p.isAbsolute = false) :
    ∃ start, (start = [] ∨ start = [.here]) ∧
      p.components = start ++ spoken (Text.splitOn '/' p.text) := by
  have hanchor : p.split.1 ≠ .root := of_decide_eq_false hp
  rw [components_eq]
  cases hcase : p.split.1 with
  | root => exact absurd hcase hanchor
  | here => exact ⟨_, .inr rfl, rfl⟩
  | plain => exact ⟨_, .inl rfl, rfl⟩

/-- What a path that is not absolute shows are its segments that speak. -/
theorem shown_of_not_isAbsolute {p : Path} (hp : p.isAbsolute = false) :
    p.shown = (spoken (Text.splitOn '/' p.text)).filterMap shown? := by
  obtain ⟨start, rfl | rfl, hcomponents⟩ := exists_components_of_not_isAbsolute hp
  all_goals
    rw [shown, hcomponents]
    rfl

/-- Nothing that is shown of a path that is not absolute is empty. -/
theorem ne_nil_of_mem_shown {p : Path} (hp : p.isAbsolute = false) :
    ∀ piece ∈ p.shown, piece ≠ [] := by
  intro piece hpiece
  rw [shown_of_not_isAbsolute hp] at hpiece
  obtain ⟨component, hcomponent, hshown⟩ := List.mem_filterMap.1 hpiece
  obtain ⟨segment, -, hsegment⟩ := List.mem_filterMap.1 hcomponent
  rw [component?] at hsegment
  split at hsegment
  · simp at hsegment
  · next hspeaks =>
    split at hsegment
    · obtain rfl := Option.some.inj hsegment
      obtain rfl := Option.some.inj hshown
      exact List.cons_ne_nil _ _
    · obtain rfl := Option.some.inj hsegment
      obtain rfl := Option.some.inj hshown
      rintro rfl
      exact hspeaks (by decide)

/-- **A file in a directory below a root**, seen from the root, says the segments of the directory
and its name, and before them at most that this starts where we are. -/
theorem exists_components_relativeTo?_file (root : Path) {directory : Path} {name : Text}
    (hdirectory : directory.isAbsolute = false) (hname : IsFileName name) :
    ∃ rel start, ((root.join directory).join ⟨name⟩).relativeTo? root = some rel ∧
      (start = [] ∨ start = [.here]) ∧
      rel.components = start ++ spoken (Text.splitOn '/' directory.text) ++ [.name name] := by
  have hmore : ∃ start, (start = [] ∨ start = [.here]) ∧ (root.join directory).components =
      root.components ++ (start ++ spoken (Text.splitOn '/' directory.text)) := by
    by_cases hroot : root.text = []
    · obtain ⟨start, hstart, hcomponents⟩ := exists_components_of_not_isAbsolute hdirectory
      refine ⟨start, hstart, ?_⟩
      obtain ⟨t⟩ := root
      obtain rfl : t = [] := hroot
      rw [join_of_empty rfl, hcomponents]
      rfl
    · exact ⟨[], .inl rfl, components_join hroot hdirectory⟩
  obtain ⟨start, hstart, hcomponents⟩ := hmore
  have hfile := components_file (root.join directory) hname
  rw [hcomponents, List.append_assoc] at hfile
  obtain ⟨rel, hrel, hrest⟩ := relativeTo?_of_components hfile
  exact ⟨rel, start, hrel, hstart, hrest⟩

/-- **A file in a directory below a root**, seen from the root, is written as the directory, a
slash, and its name; without the slash, if there is nothing to write of the directory. -/
theorem exists_relativeTo?_file (root : Path) {directory : Path} {name : Text}
    (hdirectory : directory.isAbsolute = false) (hname : IsFileName name) :
    ∃ rel, ((root.join directory).join ⟨name⟩).relativeTo? root = some rel ∧
      rel.slashed = if directory.slashed = [] then name else directory.slashed ++ '/' :: name := by
  obtain ⟨rel, start, hrel, hstart, hcomponents⟩ :=
    exists_components_relativeTo?_file root hdirectory hname
  refine ⟨rel, hrel, ?_⟩
  have hpieces : rel.shown = directory.shown ++ [name] := by
    rw [shown_of_not_isAbsolute hdirectory, shown, hcomponents, List.filterMap_append]
    rcases hstart with rfl | rfl <;> rfl
  have hempty : directory.slashed = [] ↔ directory.shown = [] := by
    rw [slashed_eq]
    exact Text.join_eq_nil_iff (ne_nil_of_mem_shown hdirectory)
  rw [slashed_eq, hpieces]
  split
  · next h =>
    rw [hempty.1 h]
    rfl
  · next h =>
    rw [Text.join_append (hempty.not.1 h) (List.cons_ne_nil name []), ← slashed_eq]
    simp [Text.join]

/-! ### Extensions -/

/-- What stands before and after the last dot of a name. -/
theorem eq_of_splitLastDot? {name before after : Text}
    (h : splitLastDot? name = some (before, after)) : name = before ++ '.' :: after := by
  rw [splitLastDot?] at h
  split at h
  · cases h
  · next dot front hfront =>
    obtain ⟨rfl, rfl⟩ := Prod.mk.inj (Option.some.inj h)
    have hhead := List.head?_dropWhile_not (fun c => decide (c ≠ '.')) name.reverse
    rw [hfront] at hhead
    obtain rfl : dot = '.' := by simpa using hhead
    have hwhole : name.reverse.takeWhile (fun c => decide (c ≠ '.')) ++ '.' :: front =
        name.reverse := hfront ▸ List.takeWhile_append_dropWhile
    have hname := congrArg List.reverse hwhole
    rw [List.reverse_reverse, List.reverse_append, List.reverse_cons, List.append_assoc] at hname
    exact hname.symm

/-- A name with an extension is its stem, a dot, and the extension. -/
theorem eq_stemOf_append {name extension : Text} (h : extensionOf? name = some extension) :
    name = stemOf name ++ '.' :: extension := by
  rw [extensionOf?] at h
  split at h
  · next c before after hdot =>
    obtain rfl := Option.some.inj h
    rw [stemOf, hdot]
    exact eq_of_splitLastDot? hdot
  · cases h

/-- The file name of a path with an extension. -/
theorem fileName?_of_extension? {p : Path} {extension : Text}
    (h : p.extension? = some extension) :
    p.fileName? = some (p.stem?.getD [] ++ '.' :: extension) := by
  obtain ⟨name, hname, hextension⟩ := Option.bind_eq_some_iff.1 h
  rw [stem?, hname]
  exact congrArg some (eq_stemOf_append hextension)

end Path

end Guidebook
