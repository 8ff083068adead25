import Guidebook.Text.Basic

/-!
# Pieces

Cutting a text at a separator and joining pieces with one, said of texts and pieces that are put
together.

## Main results

* `Text.splitOn_append`, `Text.splitOn_join`: cutting what has been put together.
* `Text.length_splitOn`: how many pieces there are.
* `Text.join_append`, `Text.join_eq_nil_iff`: joining more pieces, and none.
* `Text.exists_of_mem_splitOn_between`: the pieces of a text that stands between others.
-/

namespace Guidebook.Text

/-! ### Cutting -/

/-- A character other than the separator begins the first piece. -/
theorem splitOn_cons_of_ne {sep c : Char} (h : c ≠ sep) (rest : Text) :
    ∃ piece pieces, splitOn sep rest = piece :: pieces ∧
      splitOn sep (c :: rest) = (c :: piece) :: pieces := by
  cases hrest : splitOn sep rest with
  | nil => exact absurd hrest (splitOn_ne_nil sep rest)
  | cons piece pieces => exact ⟨piece, pieces, rfl, by simp [splitOn, h, hrest]⟩

/-- Cutting at a separator cuts both sides of it. -/
theorem splitOn_append (sep : Char) (s t : Text) :
    splitOn sep (s ++ sep :: t) = splitOn sep s ++ splitOn sep t := by
  induction s with
  | nil => simp [splitOn]
  | cons c s ih =>
      by_cases hc : c = sep
      · simp only [List.cons_append, splitOn, hc, if_true, ih]
      · obtain ⟨piece, pieces, hs, hcs⟩ := splitOn_cons_of_ne hc s
        rw [hcs, List.cons_append, splitOn, if_neg hc, ih, hs]
        rfl

/-- A text without the separator is one piece. -/
theorem splitOn_of_not_mem {sep : Char} {t : Text} (h : sep ∉ t) : splitOn sep t = [t] := by
  induction t with
  | nil => rfl
  | cons c t ih =>
      rw [List.mem_cons, not_or] at h
      rw [splitOn, if_neg (Ne.symm h.1), ih h.2]

/-- No piece holds the separator. -/
theorem not_mem_of_mem_splitOn {sep : Char} {t piece : Text} (h : piece ∈ splitOn sep t) :
    sep ∉ piece := by
  induction t generalizing piece with
  | nil =>
      rw [List.mem_singleton.1 h]
      exact List.not_mem_nil
  | cons c t ih =>
      by_cases hc : c = sep
      · rw [splitOn, if_pos hc] at h
        rcases List.mem_cons.1 h with rfl | h
        · exact List.not_mem_nil
        · exact ih h
      · obtain ⟨first, pieces, ht, hct⟩ := splitOn_cons_of_ne hc t
        rw [hct] at h
        rcases List.mem_cons.1 h with rfl | h
        · rw [List.mem_cons, not_or]
          exact ⟨Ne.symm hc, ih (ht ▸ List.mem_cons_self)⟩
        · exact ih (ht ▸ List.mem_cons_of_mem first h)

/-- There is one piece more than there are separators. -/
theorem length_splitOn (sep : Char) (t : Text) : (splitOn sep t).length = t.count sep + 1 := by
  induction t with
  | nil => rfl
  | cons c t ih =>
      by_cases hc : c = sep
      · rw [splitOn, if_pos hc, List.length_cons, ih, hc, List.count_cons_self]
      · obtain ⟨piece, pieces, ht, hct⟩ := splitOn_cons_of_ne hc t
        rw [hct, List.count_cons_of_ne hc, ← ih, ht]
        rfl

/-- **Joining and cutting**: pieces without the separator are found again. -/
theorem splitOn_join {sep : Char} {pieces : List Text} (hne : pieces ≠ [])
    (h : ∀ piece ∈ pieces, sep ∉ piece) : splitOn sep (join [sep] pieces) = pieces := by
  induction pieces with
  | nil => exact absurd rfl hne
  | cons piece pieces ih =>
      obtain ⟨hpiece, hpieces⟩ := List.forall_mem_cons.1 h
      cases pieces with
      | nil => exact splitOn_of_not_mem hpiece
      | cons next pieces =>
          rw [join, List.append_assoc, List.singleton_append, splitOn_append,
            splitOn_of_not_mem hpiece, ih (List.cons_ne_nil _ _) hpieces]
          rfl

/-! ### Joining -/

/-- Pieces in a row are joined with the separator between them. -/
theorem join_append {sep : Text} {first second : List Text} (hfirst : first ≠ [])
    (hsecond : second ≠ []) :
    join sep (first ++ second) = join sep first ++ sep ++ join sep second := by
  induction first with
  | nil => exact absurd rfl hfirst
  | cons piece pieces ih =>
      cases pieces with
      | nil =>
          obtain ⟨next, rest, rfl⟩ := List.exists_cons_of_ne_nil hsecond
          simp [join]
      | cons next rest =>
          have hrest := ih (List.cons_ne_nil next rest)
          simp only [List.cons_append, join] at hrest ⊢
          rw [hrest]
          simp

/-- What stands in joined pieces is of the separator or of a piece. -/
theorem mem_join {sep : Text} {pieces : List Text} {c : Char} (h : c ∈ join sep pieces) :
    c ∈ sep ∨ ∃ piece ∈ pieces, c ∈ piece := by
  fun_induction join sep pieces with
  | case1 => cases h
  | case2 piece => exact .inr ⟨piece, List.mem_cons_self, h⟩
  | case3 piece next pieces ih =>
      rw [List.mem_append, List.mem_append] at h
      rcases h with (hpiece | hsep) | hrest
      · exact .inr ⟨piece, List.mem_cons_self, hpiece⟩
      · exact .inl hsep
      · exact (ih hrest).imp_right fun ⟨other, hother, hc⟩ =>
          ⟨other, List.mem_cons_of_mem _ hother, hc⟩

/-- What stands in a piece stands in the joined pieces. -/
theorem mem_join_of_mem {sep : Text} {pieces : List Text} {piece : Text} {c : Char}
    (h : piece ∈ pieces) (hc : c ∈ piece) : c ∈ join sep pieces := by
  fun_induction join sep pieces with
  | case1 => cases h
  | case2 first => rwa [← List.mem_singleton.1 h]
  | case3 first next pieces ih =>
      rcases List.mem_cons.1 h with rfl | h
      · exact List.mem_append_left _ (List.mem_append_left _ hc)
      · exact List.mem_append_right _ (ih h)

/-- Pieces hold nothing that is not in the text. -/
theorem mem_of_mem_splitOn {sep : Char} {t piece : Text} {c : Char} (h : piece ∈ splitOn sep t)
    (hc : c ∈ piece) : c ∈ t := by
  rw [← join_splitOn sep t]
  exact mem_join_of_mem h hc

/-- Pieces that are not empty join to a text that is not empty. -/
theorem join_eq_nil_iff {sep : Text} {pieces : List Text} (h : ∀ piece ∈ pieces, piece ≠ []) :
    join sep pieces = [] ↔ pieces = [] := by
  cases pieces with
  | nil => simp [join]
  | cons piece pieces =>
      have hpiece := h piece (List.mem_cons_self)
      cases pieces <;> simp [join, hpiece]

/-! ### A text between others -/

section Between

variable {sep : Char} {t front tail : Text}

/-- What stands in front of a text stands in front of its first piece. -/
theorem splitOn_append_left {first : Text} {rest : List Text} (hfront : sep ∉ front)
    (ht : splitOn sep t = first :: rest) : splitOn sep (front ++ t) = (front ++ first) :: rest := by
  induction front with
  | nil => exact ht
  | cons c front ih =>
      rw [List.mem_cons, not_or] at hfront
      rw [List.cons_append, splitOn, if_neg (Ne.symm hfront.1), ih hfront.2]
      rfl

/-- What stands behind a text stands behind its last piece. -/
theorem splitOn_append_right {init : List Text} {last : Text} (htail : sep ∉ tail)
    (ht : splitOn sep t = init ++ [last]) :
    splitOn sep (t ++ tail) = init ++ [last ++ tail] := by
  have hpieces : ∀ piece ∈ init ++ [last], sep ∉ piece := fun piece hpiece =>
    not_mem_of_mem_splitOn (ht ▸ hpiece)
  obtain ⟨hinit, hlast⟩ := List.forall_mem_append.1 hpieces
  have hend : sep ∉ last ++ tail := by simp [hlast last (List.mem_singleton_self last), htail]
  rw [← join_splitOn sep t, ht]
  by_cases hnil : init = []
  · rw [hnil, List.nil_append, List.nil_append]
    exact splitOn_of_not_mem hend
  · rw [join_append hnil (List.cons_ne_nil _ _), List.append_assoc, List.append_assoc,
      List.singleton_append, splitOn_append, splitOn_join hnil hinit]
    exact congrArg (init ++ ·) (splitOn_of_not_mem hend)

/-- The pieces of a text between two others: all but the first are pieces of the text, the last with
what stands behind it. -/
theorem exists_of_mem_splitOn_between (hfront : sep ∉ front) (htail : sep ∉ tail) {piece : Text}
    (h : piece ∈ splitOn sep (front ++ t ++ tail)) :
    front <+: piece ∨ ∃ other ∈ (splitOn sep t).tail, piece = other ∨ piece = other ++ tail := by
  obtain ⟨first, rest, ht⟩ := List.exists_cons_of_ne_nil (splitOn_ne_nil sep t)
  rw [ht, List.tail_cons]
  have hleft := splitOn_append_left hfront ht
  rcases List.eq_nil_or_concat rest with rfl | ⟨init, last, rfl⟩
  · have hall := splitOn_append_right htail (List.nil_append [front ++ first] ▸ hleft)
    rw [hall, List.nil_append, List.mem_singleton] at h
    rw [h, List.append_assoc]
    exact .inl (List.prefix_append _ _)
  · rw [List.concat_eq_append] at hleft ⊢
    rw [← List.cons_append] at hleft
    rw [splitOn_append_right htail hleft, List.cons_append, List.mem_cons, List.mem_append,
      List.mem_singleton] at h
    rcases h with rfl | hmem | rfl
    · exact .inl (List.prefix_append _ _)
    · exact .inr ⟨piece, List.mem_append_left _ hmem, .inl rfl⟩
    · exact .inr ⟨last, by simp, .inr rfl⟩

end Between

end Guidebook.Text
