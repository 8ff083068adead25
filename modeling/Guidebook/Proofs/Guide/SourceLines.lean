import Guidebook.Proofs.Guide.Reading
import Guidebook.Proofs.Text.Lines

/-!
# Lines of Sources

What is known of the lines of a source: they stand in it, hold no line feed, and are what the source
is made of, so that putting white space in front of each line of a source puts it in front of each
of these.

## Main results

* `Guide.infix_of_mem_sourceLines`: lines stand in their source.
* `Guide.sourceLines_indentLines`: the lines of a source that is indented.
-/

namespace Guidebook

namespace Text

/-! ### Indenting a text -/

/-- The rest of a text, with `w` in front of each line that begins there; `start` tells whether one
begins with the next character. -/
def indentFrom (w : Text) : Bool → Text → Text
  | _, [] => []
  | true, c :: rest => w ++ c :: indentFrom w (c = '\n') rest
  | false, c :: rest => c :: indentFrom w (c = '\n') rest

/-- The text with `w` in front of each line. -/
def indentLines (w t : Text) : Text :=
  indentFrom w true t

section Indent

variable {w : Text}

/-- Only the empty text has no lines. -/
theorem lines_eq_nil_iff {t : Text} : lines t = [] ↔ t = [] := by
  fun_cases lines t <;> simp

/-- A line and its two line ends are read as the first line. -/
theorem lines_append_return {line : Text} (h : '\n' ∉ line) (rest : Text) :
    lines (line ++ '\r' :: '\n' :: rest) = line :: lines rest := by
  induction line with
  | nil => rfl
  | cons c line ih =>
      obtain ⟨hc, hline⟩ := not_or.1 (List.mem_cons.not.1 h)
      refine lines_cons (Ne.symm hc) (fun _ hhead => ?_) (ih hline)
      cases line with
      | nil => cases hhead
      | cons d line => exact hline (Option.some.inj hhead ▸ List.mem_cons_self)

/-- In the middle of a line nothing is put in front of the next character. -/
theorem head?_indentFrom (w rest : Text) : (indentFrom w false rest).head? = rest.head? := by
  cases rest <;> rfl

/-- The first line begins where the text begins. -/
theorem lines_append (hw : ∀ c, c = '\n' ∨ c = '\r' → c ∉ w) {t line : Text} {more : List Text}
    (h : lines t = line :: more) : lines (w ++ t) = (w ++ line) :: more := by
  induction w with
  | nil => exact h
  | cons c w ih =>
      have hc : ∀ d, d = '\n' ∨ d = '\r' → c ≠ d := fun d hd heq =>
        hw d hd (heq ▸ List.mem_cons_self)
      have hrest := ih fun d hd hmem => hw d hd (List.mem_cons_of_mem c hmem)
      exact lines_cons (hc _ (.inl rfl)) (fun heq => absurd heq (hc _ (.inr rfl))) hrest

/-- In the middle of a line, `w` is put in front of the lines below. -/
theorem lines_indentFrom (hw : ∀ c, c = '\n' ∨ c = '\r' → c ∉ w) {t line : Text}
    {more : List Text} (h : lines t = line :: more) :
    lines (indentFrom w false t) = line :: more.map (w ++ ·) := by
  have hstart : ∀ rest : Text, (∀ line more, lines rest = line :: more →
      lines (indentFrom w false rest) = line :: more.map (w ++ ·)) →
      lines (indentFrom w true rest) = (lines rest).map (w ++ ·) := by
    intro rest hrest
    cases rest with
    | nil => rfl
    | cons c rest =>
        obtain ⟨first, others, hlines⟩ :=
          List.exists_cons_of_ne_nil (lines_eq_nil_iff.not.2 (List.cons_ne_nil c rest))
        rw [hlines]
        exact lines_append hw (hrest first others hlines)
  fun_induction lines t generalizing line more with
  | case1 => cases h
  | case2 rest ih =>
      obtain ⟨rfl, rfl⟩ := List.cons.inj h
      exact congrArg ([] :: ·) (hstart rest fun _ _ => ih)
  | case3 rest ih =>
      obtain ⟨rfl, rfl⟩ := List.cons.inj h
      exact congrArg ([] :: ·) (hstart rest fun _ _ => ih)
  | case4 c rest hfeed hreturn hrest ih =>
      obtain ⟨rfl, rfl⟩ := List.cons.inj h
      have hline : lines [c] = [[c]] :=
        lines_of_not_mem (List.cons_ne_nil c []) (by simpa using Ne.symm hfeed)
      rw [lines_eq_nil_iff.1 hrest]
      exact hline
  | case5 c rest hfeed hreturn first others hrest ih =>
      obtain ⟨rfl, rfl⟩ := List.cons.inj h
      rw [indentFrom, decide_eq_false hfeed]
      refine lines_cons hfeed (fun hc hhead => ?_) (ih hrest)
      rw [head?_indentFrom] at hhead
      obtain ⟨tail, rfl⟩ := List.head?_eq_some_iff.1 hhead
      exact hreturn tail hc rfl

/-- **The lines of an indented text.** -/
theorem lines_indentLines (hw : ∀ c, c = '\n' ∨ c = '\r' → c ∉ w) (t : Text) :
    lines (indentLines w t) = (lines t).map (w ++ ·) := by
  cases t with
  | nil => rfl
  | cons c rest =>
      obtain ⟨first, others, hlines⟩ :=
        List.exists_cons_of_ne_nil (lines_eq_nil_iff.not.2 (List.cons_ne_nil c rest))
      rw [hlines]
      exact lines_append hw (lines_indentFrom hw hlines)

/-- A carriage return at the end of a line is taken off there, whatever stands in front of the
line. -/
theorem dropCarriageReturn_append (hw : '\r' ∉ w) (line : Text) :
    dropCarriageReturn (w ++ line) = w ++ dropCarriageReturn line := by
  cases hlast : line.getLast? with
  | none =>
      rw [List.getLast?_eq_none_iff.1 hlast, List.append_nil]
      exact (if_neg fun h => hw (List.mem_of_getLast? h)).trans (List.append_nil w).symm
  | some c =>
      have hne : line ≠ [] := by
        rintro rfl
        cases hlast
      rw [dropCarriageReturn, List.getLast?_append, hlast, Option.some_or,
        List.dropLast_append_of_ne_nil hne, dropCarriageReturn, hlast]
      split <;> rfl

end Indent

end Text

namespace Guide

/-! ### Lines -/

/-- Each line of a source stands in it, and holds no line feed. -/
theorem infix_of_mem_sourceLines {content line : Text} (h : line ∈ sourceLines content) :
    line <:+: content ∧ '\n' ∉ line := by
  obtain ⟨whole, hwhole, rfl⟩ := List.mem_map.1 h
  obtain ⟨hstands, hfeed⟩ := Text.infix_of_mem_lines hwhole
  rw [Text.dropCarriageReturn]
  split
  · exact ⟨(List.dropLast_prefix whole).isInfix.trans hstands,
      fun hmem => hfeed (List.dropLast_subset whole hmem)⟩
  · exact ⟨hstands, hfeed⟩

/-- No line of a source holds a line feed. -/
theorem not_mem_of_mem_sourceLines {content line : Text} (h : line ∈ sourceLines content) :
    '\n' ∉ line :=
  (infix_of_mem_sourceLines h).2

/-- Only the empty source has no lines. -/
theorem sourceLines_eq_nil_iff {content : Text} : sourceLines content = [] ↔ content = [] := by
  rw [sourceLines, List.map_eq_nil_iff, Text.lines_eq_nil_iff]

/-- Any lines without line feeds are those of a source, also if carriage returns end them. -/
theorem exists_source {block : List Text} (h : ∀ line ∈ block, '\n' ∉ line) :
    ∃ content, sourceLines content = block := by
  refine ⟨(block.map fun line => line ++ ['\r', '\r', '\n']).flatten, ?_⟩
  induction block with
  | nil => rfl
  | cons line block ih =>
      obtain ⟨hline, hblock⟩ := List.forall_mem_cons.1 h
      have hreturn : '\n' ∉ line ++ ['\r'] := by simp [hline]
      have hdrop : Text.dropCarriageReturn (line ++ ['\r']) = line := by
        rw [Text.dropCarriageReturn, if_pos List.getLast?_concat, List.dropLast_concat]
      rw [List.map_cons, List.flatten_cons,
        show line ++ ['\r', '\r', '\n'] = (line ++ ['\r']) ++ ['\r', '\n'] by simp,
        List.append_assoc, sourceLines]
      exact (congrArg (List.map _) (Text.lines_append_return hreturn _)).trans
        (congrArg₂ List.cons hdrop (ih hblock))

/-- **The lines of an indented source.** -/
theorem sourceLines_indentLines {w : Text} (hw : ∀ c, c = '\n' ∨ c = '\r' → c ∉ w)
    (content : Text) :
    sourceLines (Text.indentLines w content) = (sourceLines content).map (w ++ ·) := by
  rw [sourceLines, sourceLines, Text.lines_indentLines hw, List.map_map, List.map_map]
  exact List.map_congr_left fun line _ => Text.dropCarriageReturn_append (hw _ (.inr rfl)) line

end Guide

end Guidebook
