import Guidebook.Text.Line
import Mathlib.Data.List.DropRight
import Mathlib.Data.List.Infix

/-!
# Searching and Trimming

What `Text.cut`, `Text.has` and `Text.trim` find, said without the way in which they look for it: a
piece stands in a text if it is an infix of it, and the first place at which it stands is the one
before which no character of another occurrence is complete. A trimmed text is what lies between
white space at both ends and neither begins nor ends with white space itself.

## Main results

* `Text.cut_eq_none_iff`, `Text.has_iff`, `Text.cut_eq_some_iff`: searching.
* `Text.isTrimmed_trim`, `Text.exists_trim`: trimming.
-/

namespace Guidebook.Text

/-! ### Searching -/

/-- The first `piece` in the text `t` stands between `before` and `after`: every occurrence that
begins earlier would end within `before` and the last-but-one character of this one. -/
def FirstAt (piece t before after : Text) : Prop :=
  t = before ++ piece ++ after ∧ ¬ piece <:+: before ++ piece.dropLast

/-- A piece that is found stands in the text. -/
theorem FirstAt.isInfix {piece t before after : Text} (h : FirstAt piece t before after) :
    piece <:+: t :=
  ⟨before, after, h.1.symm⟩

/-- A text that does not begin with a piece holds it exactly if the text behind its first character
does. -/
theorem infix_cons_iff_of_front {piece rest : Text} {c : Char} (h : ¬ piece <+: c :: rest) :
    piece <:+: c :: rest ↔ piece <:+: rest := by
  rw [List.infix_cons_iff]
  exact or_iff_right h

/-- The search fails exactly on the texts without the piece. -/
theorem cut_eq_none_iff {piece t : Text} : cut piece t = none ↔ ¬ piece <:+: t := by
  induction t with
  | nil =>
      cases piece with
      | nil => simp [cut, List.isPrefixOf?]
      | cons c piece => simp [cut, List.isPrefixOf?]
  | cons c rest ih =>
      rw [cut]
      cases hpre : piece.isPrefixOf? (c :: rest) with
      | some after =>
          have hin : piece <:+: c :: rest :=
            ⟨[], after, by simpa using List.isPrefixOf?_eq_some_iff_append_eq.1 hpre⟩
          simp [hin]
      | none =>
          have hnot : ¬ piece <+: c :: rest := by
            rintro ⟨after, hafter⟩
            simp [List.isPrefixOf?_eq_some_iff_append_eq.2 hafter] at hpre
          rw [infix_cons_iff_of_front hnot, ← ih]
          simp

/-- Whether a piece stands in a text. -/
theorem has_iff {piece t : Text} : has piece t = true ↔ piece <:+: t := by
  rw [has, Option.isSome_iff_ne_none, ne_eq, cut_eq_none_iff, not_not]

/-- A text that is said not to have a piece does not hold it. -/
theorem has_eq_false_iff {piece t : Text} : has piece t = false ↔ ¬ piece <:+: t := by
  rw [← has_iff, Bool.not_eq_true]

/-- The search stops at a place where the piece stands. -/
theorem append_of_cut {piece t before after : Text} (h : cut piece t = some (before, after)) :
    t = before ++ piece ++ after := by
  induction t generalizing before with
  | nil =>
      simp only [cut, Option.map_eq_some_iff, Prod.mk.injEq] at h
      obtain ⟨rest, hrest, rfl, rfl⟩ := h
      simpa using (List.isPrefixOf?_eq_some_iff_append_eq.1 hrest).symm
  | cons c rest ih =>
      rw [cut] at h
      split at h
      · next hpre =>
        simp only [Option.some.injEq, Prod.mk.injEq] at h
        obtain ⟨rfl, rfl⟩ := h
        simpa using (List.isPrefixOf?_eq_some_iff_append_eq.1 hpre).symm
      · simp only [Option.map_eq_some_iff, Prod.mk.injEq, Prod.exists] at h
        obtain ⟨front, _, hcut, rfl, rfl⟩ := h
        simp [ih hcut]

/-- What lies before the last character of an occurrence is a prefix of the text. -/
theorem prefix_append_dropLast {piece : Text} (hpiece : piece ≠ []) (before after : Text) :
    before ++ piece.dropLast <+: before ++ piece ++ after := by
  refine ⟨piece.getLast hpiece :: after, ?_⟩
  conv_rhs => rw [← List.dropLast_append_getLast hpiece]
  simp

/-- The search passes over no place at which the piece stands. -/
theorem not_infix_of_cut {piece t before after : Text} (hpiece : piece ≠ [])
    (h : cut piece t = some (before, after)) : ¬ piece <:+: before ++ piece.dropLast := by
  induction t generalizing before with
  | nil =>
      simp only [cut, Option.map_eq_some_iff] at h
      obtain ⟨rest, hrest, -⟩ := h
      have heq := List.isPrefixOf?_eq_some_iff_append_eq.1 hrest
      exact absurd (List.append_eq_nil_iff.1 heq).1 hpiece
  | cons c rest ih =>
      rw [cut] at h
      split at h
      · simp only [Option.some.injEq, Prod.mk.injEq] at h
        obtain ⟨rfl, -⟩ := h
        intro hin
        have hlength := hin.length_le
        have hpos := List.length_pos_iff.2 hpiece
        simp only [List.nil_append, List.length_dropLast] at hlength
        omega
      · next hpre =>
        simp only [Option.map_eq_some_iff, Prod.mk.injEq, Prod.exists] at h
        obtain ⟨front, after, hcut, rfl, rfl⟩ := h
        rw [List.cons_append, infix_cons_iff_of_front]
        · exact ih hcut
        · intro hfront
          have hlonger := prefix_append_dropLast hpiece (c :: front) after
          rw [List.cons_append, List.cons_append, List.cons_append, ← append_of_cut hcut] at hlonger
          obtain ⟨tail, htail⟩ := hfront.trans hlonger
          simp [List.isPrefixOf?_eq_some_iff_append_eq.2 htail] at hpre

/-- The search passes over every place before which the piece is not complete. -/
theorem cut_append {piece before : Text} (hpiece : piece ≠ [])
    (h : ¬ piece <:+: before ++ piece.dropLast) (after : Text) :
    cut piece (before ++ piece ++ after) = some (before, after) := by
  induction before with
  | nil =>
      have hpre : piece.isPrefixOf? (piece ++ after) = some after :=
        List.isPrefixOf?_eq_some_iff_append_eq.2 rfl
      obtain ⟨c, rest, hcons⟩ := List.exists_cons_of_ne_nil
        (List.append_ne_nil_of_left_ne_nil hpiece after)
      rw [hcons] at hpre
      simp only [List.nil_append, hcons, cut, hpre]
  | cons c before ih =>
      have hrest : ¬ piece <:+: before ++ piece.dropLast := fun hin =>
        h (hin.trans (List.suffix_cons c _).isInfix)
      have hpre : piece.isPrefixOf? (c :: (before ++ piece ++ after)) = none := by
        rw [Option.eq_none_iff_forall_not_mem]
        intro tail htail
        -- a piece at the very front ends before the last character of the one behind `before`
        have heq := List.isPrefixOf?_eq_some_iff_append_eq.1 htail
        have hlonger := prefix_append_dropLast hpiece (c :: before) after
        refine h (List.IsPrefix.isInfix ?_)
        refine List.prefix_of_prefix_length_le ⟨tail, heq⟩ hlonger ?_
        have hpos := List.length_pos_iff.2 hpiece
        simp only [List.cons_append, List.length_cons, List.length_append, List.length_dropLast]
        omega
      simp only [List.cons_append, cut, hpre, ih hrest, Option.map_some]

/-- **The first place.** The search finds the first place at which the piece stands. -/
theorem cut_eq_some_iff {piece t before after : Text} (hpiece : piece ≠ []) :
    cut piece t = some (before, after) ↔ FirstAt piece t before after := by
  constructor
  · exact fun h => ⟨append_of_cut h, not_infix_of_cut hpiece h⟩
  · rintro ⟨rfl, hfirst⟩
    exact cut_append hpiece hfirst after

/-! ### Trimming -/

/-- A text that neither begins nor ends with white space. -/
def IsTrimmed (t : Text) : Prop :=
  (∀ c ∈ t.head?, isSpace c = false) ∧ ∀ c ∈ t.getLast?, isSpace c = false

/-- Whether a text is trimmed can be told from its first and its last character. -/
theorem isTrimmed_iff {t : Text} :
    IsTrimmed t ↔ t.head?.any isSpace = false ∧ t.getLast?.any isSpace = false :=
  and_congr (Option.any_eq_false _ _).symm (Option.any_eq_false _ _).symm

instance (t : Text) : Decidable (IsTrimmed t) :=
  decidable_of_iff' _ isTrimmed_iff

/-- A text is blank if it holds nothing but white space. -/
theorem isBlank_iff {t : Text} : isBlank t = true ↔ ∀ c ∈ t, isSpace c = true := by
  rw [isBlank, List.all_eq_true]

/-- A text is blank if its parts are. -/
@[simp] theorem isBlank_append (s t : Text) : isBlank (s ++ t) = (isBlank s && isBlank t) := by
  rw [isBlank, List.all_append, isBlank, isBlank]

/-- A piece that does not begin with white space is not found in white space before the text. -/
theorem cut_append_blank {piece w : Text} (hpiece : piece ≠ [])
    (hhead : piece.head?.any isSpace = false) (hw : isBlank w = true) (t : Text) :
    cut piece (w ++ t) = (cut piece t).map fun (before, after) => (w ++ before, after) := by
  obtain ⟨d, tail, rfl⟩ := List.exists_cons_of_ne_nil hpiece
  rw [isBlank_iff] at hw
  induction w with
  | nil => exact Option.map_id'.symm
  | cons c w ih =>
      obtain ⟨hc, hw⟩ := List.forall_mem_cons.1 hw
      have hne : d ≠ c := by
        rintro rfl
        exact absurd (hhead.symm.trans hc) (by decide)
      have hpre : (d :: tail).isPrefixOf? (c :: (w ++ t)) = none := if_neg (by simpa using hne)
      rw [List.cons_append, cut, hpre]
      simp only [ih hw, Option.map_map]
      rfl

/-- White space in front of a text does not make it have a piece that begins with none. -/
theorem has_append_blank {piece w : Text} (hpiece : piece ≠ [])
    (hhead : piece.head?.any isSpace = false) (hw : isBlank w = true) (t : Text) :
    has piece (w ++ t) = has piece t := by
  rw [has, has, cut_append_blank hpiece hhead hw, Option.isSome_map]

/-- A piece that begins with no white space stands in a text behind white space just if it stands in
the text. -/
theorem infix_append_blank {piece w : Text} (hpiece : piece ≠ [])
    (hhead : piece.head?.any isSpace = false) (hw : isBlank w = true) (t : Text) :
    piece <:+: w ++ t ↔ piece <:+: t := by
  rw [← has_iff, ← has_iff, has_append_blank hpiece hhead hw]

/-- Blanks are blank, however many there are. -/
theorem isBlank_replicate_space (n : Nat) : isBlank (List.replicate n ' ') = true := by
  rw [isBlank_iff]
  intro c hc
  rw [List.eq_of_mem_replicate hc]
  decide

/-- Dropping from the end is undone by what is blank there. -/
theorem exists_trimEnd (t : Text) : ∃ after, isBlank after = true ∧ t = trimEnd t ++ after :=
  ⟨t.rtakeWhile isSpace, isBlank_iff.2 fun _ => List.mem_rtakeWhile_imp,
    (List.rdropWhile_append_rtakeWhile (p := isSpace) (l := t)).symm⟩

/-- **Trimming takes blanks only.** A text is its trimmed part between two blank texts. -/
theorem exists_trim (t : Text) : ∃ before after, isBlank before = true ∧ isBlank after = true ∧
    t = before ++ trim t ++ after := by
  obtain ⟨after, hafter, heq⟩ := exists_trimEnd (trimStart t)
  refine ⟨t.takeWhile isSpace, after, isBlank_iff.2 fun _ => List.mem_takeWhile_imp, hafter, ?_⟩
  rw [List.append_assoc, trim, ← heq, trimStart, List.takeWhile_append_dropWhile]

/-- A trimmed text holds nothing that the text does not hold. -/
theorem mem_of_mem_trim {t : Text} {c : Char} (h : c ∈ trim t) : c ∈ t := by
  obtain ⟨before, after, -, -, heq⟩ := exists_trim t
  rw [heq]
  simp [h]

/-- There is nothing to trim at the start of a text that begins otherwise. -/
theorem trimStart_eq_self {t : Text} (h : ∀ c ∈ t.head?, isSpace c = false) : trimStart t = t := by
  cases t with
  | nil => rfl
  | cons c rest => simp [trimStart, h c rfl]

/-- There is nothing to trim at the end of a text that ends otherwise. -/
theorem trimEnd_eq_self {t : Text} (h : ∀ c ∈ t.getLast?, isSpace c = false) : trimEnd t = t := by
  refine List.rdropWhile_eq_self_iff.2 fun hne => ?_
  rw [h _ (List.getLast?_eq_some_getLast hne)]
  simp

/-- A text that is trimmed stays as it is. -/
theorem trim_eq_self {t : Text} (h : IsTrimmed t) : trim t = t := by
  rw [trim, trimStart_eq_self h.1, trimEnd_eq_self h.2]

/-- A text between two characters that are no white space is trimmed. -/
theorem isTrimmed_of_ends {c d : Char} (hc : isSpace c = false) (middle : Text)
    (hd : isSpace d = false) : IsTrimmed (c :: middle ++ [d]) := by
  refine ⟨fun e he => ?_, fun e he => ?_⟩
  · obtain rfl := Option.some.inj he
    exact hc
  · rw [List.getLast?_concat] at he
    obtain rfl := Option.some.inj he
    exact hd

/-- Trimming leaves a trimmed text. -/
theorem isTrimmed_trim (t : Text) : IsTrimmed (trim t) := by
  constructor
  · intro c hc
    obtain ⟨after, -, heq⟩ := exists_trimEnd (trimStart t)
    have hhead := List.head?_dropWhile_not isSpace t
    have hstart : (t.dropWhile isSpace).head? = some c := by
      rw [show t.dropWhile isSpace = trim t ++ after from heq, List.head?_append, hc]
      rfl
    rw [hstart] at hhead
    exact hhead
  · intro c hc
    have hne : trim t ≠ [] := by
      rintro hnil
      rw [hnil] at hc
      simp at hc
    have hlast := List.rdropWhile_last_not isSpace (trimStart t) hne
    rw [Option.mem_def, List.getLast?_eq_some_getLast hne, Option.some.injEq] at hc
    rw [← hc]
    exact Bool.not_eq_true _ ▸ hlast

/-- White space in front of a text is trimmed off. -/
theorem trim_append_left {margin : Text} (h : isBlank margin = true) (t : Text) :
    trim (margin ++ t) = trim t := by
  rw [trim, trimStart, List.dropWhile_append_of_pos (isBlank_iff.1 h)]
  rfl

/-- White space behind a text is trimmed off where only its end is. -/
theorem trimEnd_append_right {margin : Text} (h : isBlank margin = true) (t : Text) :
    trimEnd (t ++ margin) = trimEnd t := by
  rw [trimEnd, dropEndWhile, List.reverse_append, List.dropWhile_append_of_pos]
  · rfl
  · intro c hc
    exact isBlank_iff.1 h c (List.mem_reverse.1 hc)

/-- White space behind a text is trimmed off. -/
theorem trim_append_right {margin : Text} (h : isBlank margin = true) (t : Text) :
    trim (t ++ margin) = trim t := by
  rw [trim, trimStart, List.dropWhile_append]
  split
  · next hblank =>
    rw [List.isEmpty_iff] at hblank
    rw [List.dropWhile_eq_nil_iff.2 (isBlank_iff.1 h), trim, trimStart, hblank]
  · exact trimEnd_append_right h _

/-- Trimming twice is trimming once. -/
@[simp] theorem trim_trim (t : Text) : trim (trim t) = trim t :=
  trim_eq_self (isTrimmed_trim t)

/-- Trimming keeps a first character that is no white space. -/
theorem exists_trim_cons {c : Char} (hc : isSpace c = false) (t : Text) :
    ∃ rest, trim (c :: t) = c :: rest := by
  obtain ⟨before, after, hbefore, hafter, heq⟩ := exists_trim (c :: t)
  have hnot : ∀ margin : Text, isBlank margin = true → c ∉ margin := by
    intro margin hmargin hmem
    exact Bool.false_ne_true (hc.symm.trans (isBlank_iff.1 hmargin c hmem))
  cases before with
  | cons d before =>
      obtain ⟨rfl, -⟩ := List.cons.inj heq
      exact absurd List.mem_cons_self (hnot _ hbefore)
  | nil =>
      cases htrim : trim (c :: t) with
      | nil =>
          rw [htrim] at heq
          have hmem : c ∈ after := by
            rw [← show c :: t = after from heq]
            exact List.mem_cons_self
          exact absurd hmem (hnot after hafter)
      | cons d rest =>
          rw [htrim] at heq
          obtain ⟨rfl, -⟩ := List.cons.inj heq
          exact ⟨rest, rfl⟩

/-- Nothing is left of a text just if it is blank. -/
theorem trim_eq_nil_iff {t : Text} : trim t = [] ↔ isBlank t = true := by
  constructor
  · intro h
    obtain ⟨before, after, hbefore, hafter, heq⟩ := exists_trim t
    rw [heq, h, List.append_nil, isBlank_append, hbefore, hafter]
    rfl
  · intro h
    have hnil := trim_append_left h []
    rw [List.append_nil] at hnil
    exact hnil

/-- Trimming leaves alone what is not white space. -/
theorem filter_trim (t : Text) :
    (trim t).filter (fun c => !isSpace c) = t.filter fun c => !isSpace c := by
  obtain ⟨before, after, hbefore, hafter, heq⟩ := exists_trim t
  have hnone : ∀ margin : Text, isBlank margin = true →
      margin.filter (fun c => !isSpace c) = [] := by
    intro margin hmargin
    rw [List.filter_eq_nil_iff]
    intro c hc
    simp [isBlank_iff.1 hmargin c hc]
  conv_rhs => rw [heq]
  rw [List.filter_append, List.filter_append, hnone before hbefore, hnone after hafter]
  simp

end Guidebook.Text
