import Guidebook.Proofs.Path.Descending

/-!
# Paths Within a Root

A path that is read from within a root is written behind it. What is done with the segments of the
path is then done behind those of the root: the way up leads, as long as it stays within the root,
from a path within it to a path within it, and seen from the root, what is left is what has been
written behind it. So none of this depends on what the root is.

## Main results

* `Path.parent?_join`: **the way up** within a root.
* `Path.relativeTo?_join`: a path within a root, **seen from the root**.
* `Path.relativeTo?_descend`: the same for names that lead down.
-/

namespace Guidebook.Path

/-! ### All segments of a path -/

/-- The segments that an anchor is written with. -/
def Anchor.lead : Anchor → List Text
  | .root => [[]]
  | .here => [['.']]
  | .plain => []

/-- The segments of a text are those of the anchor and those behind it. -/
theorem splitOn_text (p : Path) : Text.splitOn '/' p.text = p.split.1.lead ++ p.split.2 := by
  obtain ⟨t⟩ := p
  rcases text_cases t with ⟨rest, rfl⟩ | rfl | ⟨rest, rfl⟩ | hplain
  · rfl
  · rfl
  · rfl
  · rw [split_of_isPlain hplain]
    rfl

/-- A path that is put together begins as its anchor is written. -/
theorem text_build (anchor : Anchor) {segments : List Text} (h : segments ≠ []) :
    (build anchor segments).text = Text.join ['/'] (anchor.lead ++ segments) := by
  obtain ⟨segment, rest, rfl⟩ := List.exists_cons_of_ne_nil h
  cases anchor <;> rfl

/-- Silent segments at the end are those of the second part, unless all of it is silent. -/
theorem dropSilentEnd_append {front segments : List Text} (h : dropSilentEnd segments ≠ []) :
    dropSilentEnd (front ++ segments) = front ++ dropSilentEnd segments := by
  have hspeaks : segments.reverse.dropWhile isSilent ≠ [] := fun hnil =>
    h (by rw [dropSilentEnd, hnil]; rfl)
  rw [dropSilentEnd, dropSilentEnd, List.reverse_append, List.dropWhile_append,
    if_neg (by simpa using hspeaks), List.reverse_append, List.reverse_reverse]

/-- The segments one level up: without the last that speaks. -/
def segmentsUp (segments : List Text) : List Text :=
  dropSilentEnd (dropSilentEnd segments).dropLast

/-- One level up, the last component is missing. -/
theorem spoken_segmentsUp (segments : List Text) :
    spoken (segmentsUp segments) = (spoken segments).dropLast := by
  rw [segmentsUp, spoken_dropSilentEnd]
  by_cases h : dropSilentEnd segments = []
  · have hnone : spoken segments = [] := by
      rw [← spoken_dropSilentEnd, h]
      rfl
    rw [h, hnone]
    rfl
  · exact spoken_dropLast_dropSilentEnd h

/-- One level up, some segment is left if some component is. -/
theorem segmentsUp_ne_nil {segments : List Text} (h : (spoken segments).dropLast ≠ []) :
    segmentsUp segments ≠ [] := by
  intro hnil
  rw [← spoken_segmentsUp, hnil] at h
  exact h rfl

/-- One level up from segments behind others, unless nothing is left of them. -/
theorem segmentsUp_append {front segments : List Text} (h : segmentsUp segments ≠ []) :
    segmentsUp (front ++ segments) = front ++ segmentsUp segments := by
  have hmore : (dropSilentEnd segments).dropLast ≠ [] := fun hnil =>
    h (by rw [segmentsUp, hnil]; rfl)
  have hspeaks : dropSilentEnd segments ≠ [] := fun hnil => hmore (by rw [hnil]; rfl)
  rw [segmentsUp, dropSilentEnd_append hspeaks, List.dropLast_append_of_ne_nil hspeaks,
    dropSilentEnd_append h]
  rfl

/-- The way up from a path with more than one move, by its segments. -/
theorem parent?_eq {p : Path} (h : p.moves.dropLast ≠ []) :
    p.parent? = some ⟨Text.join ['/'] (segmentsUp (Text.splitOn '/' p.text))⟩ := by
  rw [moves_eq] at h
  have hup := segmentsUp_ne_nil h
  have hspeaks : dropSilentEnd p.split.2 ≠ [] := fun hnil => hup (by rw [segmentsUp, hnil]; rfl)
  have hparent : p.parent? = some (build p.split.1 (segmentsUp p.split.2)) := by
    rw [parent?]
    simp only
    split
    · next hnil _ => exact absurd hnil hspeaks
    · next hnil _ => exact absurd hnil hspeaks
    · rfl
  rw [hparent, splitOn_text, segmentsUp_append hup, ← text_build _ hup]

/-! ### The way up -/

/-- **The way up within a root** leads to a path within it, as long as there is a move left. -/
theorem parent?_join {root q : Path} (hroot : root.text ≠ []) (hq : q.isAbsolute = false)
    (h : q.moves.dropLast ≠ []) :
    ∃ above, q.parent? = some above ∧ (root.join q).parent? = some (root.join above) := by
  obtain ⟨t, -, hjoin⟩ := join_eq hroot
  have hmoves : (root.join q).moves.dropLast ≠ [] := by
    have hne : q.moves ≠ [] := fun hnil => h (by rw [hnil]; rfl)
    rw [moves_join root hq, List.dropLast_append_of_ne_nil hne]
    exact List.append_ne_nil_of_right_ne_nil _ h
  have hparent := parent?_eq h
  refine ⟨_, hparent, ?_⟩
  rw [parent?_eq hmoves, hjoin _ (isAbsolute_parent? hparent hq), hjoin q hq, Text.splitOn_append,
    segmentsUp_append (segmentsUp_ne_nil h),
    Text.join_append (Text.splitOn_ne_nil _ _) (segmentsUp_ne_nil h), Text.join_splitOn]
  simp

/-- The way up is written as the path begins. -/
theorem text_prefix_of_parent? {p above : Path} (h : p.parent? = some above) :
    above.text <+: p.text := by
  have hfront : ∀ {anchor : Anchor} {front segments : List Text}, front <+: segments →
      (build anchor front).text <+: (build anchor segments).text := by
    rintro anchor front - ⟨rest, rfl⟩
    have hjoin : Text.join ['/'] front <+: Text.join ['/'] (front ++ rest) := by
      by_cases hne : front = [] ∨ rest = []
      · rcases hne with rfl | rfl
        · exact List.nil_prefix
        · rw [List.append_nil]
      · obtain ⟨hfront, hrest⟩ := not_or.1 hne
        rw [Text.join_append hfront hrest, List.append_assoc]
        exact List.prefix_append _ _
    cases anchor with
    | root => exact List.cons_prefix_cons.2 ⟨rfl, hjoin⟩
    | plain => exact hjoin
    | here =>
        by_cases hempty : front = []
        · subst hempty
          cases rest with
          | nil => exact List.prefix_rfl
          | cons s rest => exact ⟨_, rfl⟩
        · rw [build_here hempty, build_here (List.append_ne_nil_of_left_ne_nil hempty _)]
          exact List.cons_prefix_cons.2 ⟨rfl, List.cons_prefix_cons.2 ⟨rfl, hjoin⟩⟩
  have hup : segmentsUp p.split.2 <+: p.split.2 :=
    (dropSilentEnd_front _).trans ((List.dropLast_prefix _).trans (dropSilentEnd_front _))
  have hwhole := build_split p
  unfold parent? at h
  generalize p.split = split at h hup hwhole
  obtain ⟨anchor, segments⟩ := split
  simp only at h hup hwhole
  split at h
  · rw [← Option.some.inj h]
    exact List.nil_prefix
  · cases h
  · rw [← Option.some.inj h]
    conv_rhs => rw [← hwhole]
    exact hfront hup

/-- A path has no more moves than characters. -/
theorem length_moves_le (p : Path) : p.moves.length ≤ p.text.length := by
  obtain ⟨t⟩ := p
  have hcons : ∀ segment segments, (spoken (segment :: segments)).length ≤
      (spoken segments).length + 1 := by
    intro segment segments
    rw [← List.singleton_append, spoken_append, List.length_append, Nat.add_comm]
    exact Nat.add_le_add_left (List.length_filterMap_le _ _) _
  have hmore : ∀ segment segments, (spoken segments).length ≤
      (spoken (segment :: segments)).length := by
    intro segment segments
    rw [← List.singleton_append, spoken_append, List.length_append]
    exact Nat.le_add_left _ _
  change (spoken (Text.splitOn '/' t)).length ≤ t.length
  induction t with
  | nil => exact Nat.le_refl 0
  | cons c t ih =>
      by_cases hc : c = '/'
      · rw [Text.splitOn, if_pos hc, spoken_cons_of_silent (by decide)]
        exact ih.trans (Nat.le_succ _)
      · obtain ⟨piece, pieces, ht, hct⟩ := Text.splitOn_cons_of_ne hc t
        rw [hct]
        rw [ht] at ih
        exact (hcons _ _).trans (Nat.succ_le_succ ((hmore piece pieces).trans ih))

/-! ### Seen from the root -/

/-- The path as it is seen from a root that it is read from within. -/
def seen (q : Path) : Path :=
  build .plain (dropSilentEnd ((Text.splitOn '/' q.text).dropWhile isSilent))

/-- Behind as many components as the front says, the front is gone. -/
theorem dropWhile_dropSpoken (front segments : List Text) :
    (dropSpoken (spoken front).length (front ++ segments)).dropWhile isSilent =
      segments.dropWhile isSilent := by
  induction front with
  | nil => rw [List.nil_append, spoken, List.filterMap_nil, List.length_nil, dropSpoken]
  | cons segment front ih =>
      by_cases hsilent : isSilent segment = true
      · rw [spoken_cons_of_silent hsilent, ← ih, List.cons_append]
        cases (spoken front).length with
        | zero => rw [dropSpoken, dropSpoken, List.dropWhile_cons_of_pos hsilent]
        | succ n => rw [dropSpoken, if_pos hsilent]
      · obtain ⟨component, hcomponent⟩ := Option.ne_none_iff_exists'.1
          (component?_eq_none_iff.not.2 hsilent)
        rw [← ih, List.cons_append, spoken, List.filterMap_cons, hcomponent, List.length_cons,
          dropSpoken, if_neg hsilent]
        rfl

/-- Within a root, a path begins as the root does. -/
theorem anchor_join {root q : Path} (hroot : root.text ≠ []) (hq : q.isAbsolute = false) :
    (root.join q).split.1 = root.split.1 := by
  obtain ⟨t, ⟨rfl, hne⟩ | rfl, hjoin⟩ := join_eq hroot
  · rw [hjoin q hq, anchor_append hne]
  · rw [hjoin q hq]
    by_cases hne : t = []
    · subst hne
      rfl
    · rw [anchor_append hne, anchor_append hne]

/-- The segments of a path within a root are those of the root, as far as they speak, and its
own. -/
theorem exists_split_join {root q : Path} (hroot : root.text ≠ []) (hq : q.isAbsolute = false) :
    ∃ front, (root.join q).split = (root.split.1, front ++ Text.splitOn '/' q.text) ∧
      spoken front = root.moves := by
  obtain ⟨t, ht, hjoin⟩ := join_eq hroot
  have hsilent : ∀ anchor : Anchor, spoken anchor.lead = [] := by
    intro anchor
    cases anchor <;> rfl
  have hanchor := anchor_join hroot hq
  have hsegments := splitOn_text (root.join q)
  rw [hanchor, hjoin q hq, Text.splitOn_append] at hsegments
  rw [← hjoin q hq] at hsegments
  rw [moves_of_front ht]
  rcases List.append_eq_append_iff.1 hsegments with ⟨rest, hlead, hrest⟩ | ⟨front, hfront, hrest⟩
  · -- The text in front of the slash is the anchor and nothing else.
    have hrestNil : rest = [] := by
      have hlength := congrArg List.length hlead
      have hone : root.split.1.lead.length ≤ 1 := by cases root.split.1 <;> decide
      have hpos := List.length_pos_iff.2 (Text.splitOn_ne_nil '/' t)
      rw [List.length_append] at hlength
      exact List.length_eq_zero_iff.1 (by omega)
    subst hrestNil
    refine ⟨[], Prod.ext hanchor hrest.symm, ?_⟩
    rw [List.append_nil] at hlead
    rw [← hlead, hsilent]
    rfl
  · refine ⟨front, Prod.ext hanchor hrest, ?_⟩
    rw [hfront, spoken_append, hsilent]
    rfl

/-- **Seen from a root**, a path that is read from within it does not depend on the root. -/
theorem relativeTo?_join {root q : Path} (hroot : root.text ≠ []) (hq : q.isAbsolute = false) :
    (root.join q).relativeTo? root = some q.seen := by
  have hprefix : root.components.isPrefixOf (root.join q).components = true := by
    rw [components_join hroot hq, List.isPrefixOf_iff_prefix]
    exact List.prefix_append _ _
  obtain ⟨front, hsplit, hfront⟩ := exists_split_join hroot hq
  have hrest := dropWhile_dropSpoken front (Text.splitOn '/' q.text)
  have hlength : root.components.length =
      root.split.1.components.length + (spoken front).length := by
    rw [components_eq, List.length_append, hfront]
    rfl
  rw [relativeTo?, if_pos hprefix, hsplit, hlength, seen, ← hrest]
  cases hanchor : root.split.1 with
  | root => rw [Anchor.components, List.length_singleton, Nat.add_comm]
  | here => rw [Anchor.components, List.length_singleton, Nat.add_comm]
  | plain =>
      -- A root that begins with neither `/` nor `./` has a move.
      have hmove : (spoken front).length ≠ 0 := by
        have hsaid := components_ne_nil hroot
        rw [components_eq, hanchor] at hsaid
        rw [hfront, Ne, List.length_eq_zero_iff]
        exact hsaid
      obtain ⟨n, hn⟩ := Nat.exists_eq_succ_of_ne_zero hmove
      rw [Anchor.components, List.length_nil, Nat.zero_add, hn]

/-! ### Paths that stay within -/

/-- The path starts where we are and holds no `..`. -/
structure Inward (q : Path) : Prop where
  relative : q.isAbsolute = false
  straight : .up ∉ q.moves

instance (q : Path) : Decidable q.Inward :=
  decidable_of_iff (q.isAbsolute = false ∧ .up ∉ q.moves)
    ⟨fun h => ⟨h.1, h.2⟩, fun h => ⟨h.relative, h.straight⟩⟩

namespace Inward

variable {p q : Path}

/-- What does not lead up, read from within what does not lead up, does not lead up. -/
theorem join (hp : p.Inward) (hq : q.Inward) : (p.join q).Inward where
  relative := (isAbsolute_join p hq.relative).trans hp.relative
  straight := by
    rw [moves_join p hq.relative, List.mem_append, not_or]
    exact ⟨hp.straight, hq.straight⟩

/-- The directory above a path that does not lead up does not lead up. -/
theorem parent? (hp : p.Inward) (h : p.parent? = some q) : q.Inward where
  relative := isAbsolute_parent? h hp.relative
  straight := by
    rw [(moves_parent? h).1]
    exact fun hmem => hp.straight (List.dropLast_subset _ hmem)

end Inward

/-- The name of a file does not lead up. -/
theorem IsFileName.inward {name : Text} (h : IsFileName name) : (⟨name⟩ : Path).Inward where
  relative := h.isAbsolute
  straight := by
    rw [moves_file h]
    simp

/-! ### Names that lead down -/

/-- Moves without `..` are names. -/
theorem exists_names_of_moves {q : Path} (hup : .up ∉ q.moves) :
    ∃ names : List Text, q.moves = names.map .name := by
  have hnames : ∀ segments, .up ∉ spoken segments →
      ∃ names : List Text, spoken segments = names.map .name := by
    intro segments hup
    induction segments with
    | nil => exact ⟨[], rfl⟩
    | cons segment segments ih =>
        rw [← List.singleton_append, spoken_append, List.mem_append, not_or] at hup
        obtain ⟨names, hnames⟩ := ih hup.2
        rw [← List.singleton_append, spoken_append, hnames]
        by_cases hsilent : isSilent segment = true
        · exact ⟨names, by rw [spoken_cons_of_silent hsilent]; rfl⟩
        · refine ⟨segment :: names, ?_⟩
          have hsegment : segment ≠ ['.', '.'] := by
            rintro rfl
            exact hup.1 (by decide)
          simp [spoken, component?, hsilent, hsegment]
  exact hnames _ hup

/-- **Within a root**, a path without `..` leads to a place beneath that of the root. -/
theorem exists_resolve_join {q : Path} (hq : q.Inward) :
    ∃ names, ∀ (root : Path) (here : Location),
      (root.join q).resolve here = root.resolve here ++ names := by
  obtain ⟨names, hnames⟩ := exists_names_of_moves hq.straight
  refine ⟨names, fun root here => ?_⟩
  rw [resolve_join root hq.relative, hnames, Location.walk_names]

section Descend

variable {root : Path} {names : List Text} (hnames : ∀ name ∈ names, IsFileName name)

include hnames in
/-- Names add themselves to the moves of the root, and keep where it starts. -/
theorem moves_descend (root : Path) :
    (root.descend names).moves = root.moves ++ names.map .name ∧
      (root.descend names).isAbsolute = root.isAbsolute := by
  induction names using List.reverseRecOn with
  | nil => exact ⟨(List.append_nil _).symm, rfl⟩
  | append_singleton names name ih =>
      rw [List.forall_mem_append] at hnames
      obtain ⟨hmoves, hstart⟩ := ih hnames.1
      have hname := hnames.2 name (List.mem_singleton.2 rfl)
      rw [descend_concat, moves_join _ hname.isAbsolute, isAbsolute_join _ hname.isAbsolute, hmoves,
        moves_file hname, List.map_append, List.append_assoc]
      exact ⟨rfl, hstart⟩

include hnames in
/-- What names lead down to from a path that does not lead up does not lead up. -/
theorem Inward.descend {q : Path} (hq : q.Inward) : (q.descend names).Inward where
  relative := (moves_descend hnames q).2.trans hq.relative
  straight := by
    rw [(moves_descend hnames q).1, List.mem_append, not_or]
    exact ⟨hq.straight, by simp⟩

include hnames in
/-- Names that lead down from a path within a root lead down within the root. -/
theorem descend_join (root : Path) {q : Path} (hq : q.isAbsolute = false) :
    (root.join q).descend names = root.join (q.descend names) := by
  induction names using List.reverseRecOn with
  | nil => rfl
  | append_singleton names name ih =>
      rw [List.forall_mem_append] at hnames
      have hname := hnames.2 name (List.mem_singleton.2 rfl)
      rw [descend_concat, descend_concat, ih hnames.1,
        join_assoc root ((moves_descend hnames.1 q).2.trans hq) hname.isAbsolute]

include hnames in
/-- **Seen from a root**, what names lead down to is the names between slashes. -/
theorem relativeTo?_descend (hroot : root.text ≠ []) (hne : names ≠ []) :
    (root.descend names).relativeTo? root = some ⟨Text.join ['/'] names⟩ := by
  have hspeaks : names.dropWhile isSilent = names := by
    obtain ⟨name, rest, rfl⟩ := List.exists_cons_of_ne_nil hne
    rw [List.dropWhile_cons_of_neg]
    rw [(hnames name List.mem_cons_self).speaks]
    exact Bool.false_ne_true
  rw [descend_eq_join hnames hne, relativeTo?_join hroot (isAbsolute_names hnames), seen,
    Text.splitOn_join hne fun name hname => (hnames name hname).clean, hspeaks,
    dropSilentEnd_names hnames]
  rfl

end Descend

end Guidebook.Path
