import Guidebook.Proofs.Text.Search
import Guidebook.Text.Line

/-!
# Lines and Indentation

Writing lines one below the other and cutting the text into lines again, and what indentation does
to a block of lines: white space in front of each line, and blank lines before or behind the block,
are what `Text.dedent` takes away.

## Main results

* `Text.lines_unlines`: the lines that are written are the lines that are read.
* `Text.dedent_map`: white space in front of all lines leaves no trace.
* `Text.dedent_cons_blank`, `Text.dedent_concat_blank`: neither do blank lines at the ends.
-/

namespace Guidebook.Text

/-! ### Lines -/

/-- The lines one below the other, each with its line end. -/
def unlines (block : List Text) : Text :=
  (block.map fun line => line ++ ['\n']).flatten

/-- The first line is written first, with its line end. -/
theorem unlines_cons (line : Text) (block : List Text) :
    unlines (line :: block) = line ++ '\n' :: unlines block := by
  simp [unlines]

/-- Lines in a row are written in a row. -/
theorem unlines_append (first second : List Text) :
    unlines (first ++ second) = unlines first ++ unlines second := by
  rw [unlines, List.map_append, List.flatten_append]
  rfl

/-- A text that can be a line: it holds no line feed and does not end with a carriage return. -/
def IsLine (line : Text) : Prop :=
  '\n' ∉ line ∧ line.getLast? ≠ some '\r'

instance (line : Text) : Decidable (IsLine line) :=
  inferInstanceAs (Decidable (_ ∧ _))

/-- A text with no character of line ends in it can be a line. -/
theorem isLine_of_not_mem {line : Text} (h : ∀ c, c = '\n' ∨ c = '\r' → c ∉ line) : IsLine line :=
  ⟨h '\n' (.inl rfl), fun hlast => h '\r' (.inr rfl) (List.mem_of_getLast? hlast)⟩

/-- A character before a line feed begins the first line, unless it is a line end itself. -/
theorem lines_cons {c : Char} {rest line : Text} {more : List Text} (hfeed : c ≠ '\n')
    (hreturn : c = '\r' → rest.head? ≠ some '\n') (h : lines rest = line :: more) :
    lines (c :: rest) = (c :: line) :: more := by
  rw [lines]
  · rw [h]
  · exact fun heq => hfeed heq
  · rintro tail rfl rfl
    exact hreturn rfl rfl

/-- A text without line ends is a line. -/
theorem lines_of_not_mem {line : Text} (hne : line ≠ []) (h : '\n' ∉ line) :
    lines line = [line] := by
  induction line with
  | nil => exact absurd rfl hne
  | cons c rest ih =>
      obtain ⟨hc, hrest⟩ := not_or.1 (List.mem_cons.not.1 h)
      cases rest with
      | nil =>
          rw [lines]
          · rfl
          · exact fun heq => hc heq.symm
          · simp
      | cons d rest =>
          refine lines_cons (Ne.symm hc) (fun _ heq => ?_) (ih (List.cons_ne_nil d rest) hrest)
          exact hrest (by simp [Option.some.inj heq])

/-- A line and its line end are read as the first line. -/
theorem lines_append_feed {line : Text} (h : IsLine line) (rest : Text) :
    lines (line ++ '\n' :: rest) = line :: lines rest := by
  obtain ⟨hfeed, hreturn⟩ := h
  induction line with
  | nil => rfl
  | cons c line ih =>
      obtain ⟨hc, hline⟩ := not_or.1 (List.mem_cons.not.1 hfeed)
      cases line with
      | nil =>
          refine lines_cons (Ne.symm hc) (fun heq => ?_) (ih hline (by simp))
          exact absurd (congrArg some heq) hreturn
      | cons d line =>
          refine lines_cons (Ne.symm hc) (fun _ heq => ?_) (ih hline ?_)
          · exact hline (by simp [Option.some.inj heq])
          · rwa [List.getLast?_cons_cons] at hreturn

/-- **Writing and reading lines.** -/
theorem lines_unlines {block : List Text} (h : ∀ line ∈ block, IsLine line) :
    lines (unlines block) = block := by
  induction block with
  | nil => rfl
  | cons line block ih =>
      obtain ⟨hline, hblock⟩ := List.forall_mem_cons.1 h
      rw [unlines_cons, lines_append_feed hline, ih hblock]

/-- A line has no carriage return to lose. -/
theorem dropCarriageReturn_eq_self {line : Text} (h : IsLine line) :
    dropCarriageReturn line = line :=
  if_neg h.2

/-- The first line of a text stands at its front. -/
theorem front_of_lines {t line : Text} (h : line ∈ (lines t).head?) : line <+: t := by
  fun_induction lines t generalizing line with
  | case1 => simp at h
  | case2 rest ih =>
      obtain rfl := Option.some.inj h
      exact List.nil_prefix
  | case3 rest ih =>
      obtain rfl := Option.some.inj h
      exact List.nil_prefix
  | case4 c rest hfeed hreturn hrest ih =>
      obtain rfl := Option.some.inj h
      exact ⟨rest, rfl⟩
  | case5 c rest hfeed hreturn first more hrest ih =>
      obtain rfl := Option.some.inj h
      exact List.cons_prefix_cons.2 ⟨rfl, ih (by rw [hrest]; rfl)⟩

/-- Each line of a text stands in it, and holds no line feed. -/
theorem infix_of_mem_lines {t line : Text} (h : line ∈ lines t) : line <:+: t ∧ '\n' ∉ line := by
  fun_induction lines t generalizing line with
  | case1 => simp at h
  | case2 rest ih =>
      rcases List.mem_cons.1 h with rfl | hrest
      · exact ⟨List.nil_infix, by simp⟩
      · exact ⟨(ih hrest).1.trans (List.suffix_cons _ _).isInfix, (ih hrest).2⟩
  | case3 rest ih =>
      rcases List.mem_cons.1 h with rfl | hrest
      · exact ⟨List.nil_infix, by simp⟩
      · exact ⟨(ih hrest).1.trans ⟨['\r', '\n'], [], by simp⟩, (ih hrest).2⟩
  | case4 c rest hfeed hreturn hrest ih =>
      obtain rfl := List.mem_singleton.1 h
      exact ⟨⟨[], rest, rfl⟩, by simpa using Ne.symm hfeed⟩
  | case5 c rest hfeed hreturn first more hrest ih =>
      rw [hrest] at ih
      rcases List.mem_cons.1 h with rfl | hmore
      · have hfront : first <+: rest := front_of_lines (by rw [hrest]; rfl)
        refine ⟨(List.cons_prefix_cons.2 ⟨rfl, hfront⟩).isInfix, ?_⟩
        rw [List.mem_cons, not_or]
        exact ⟨Ne.symm hfeed, (ih List.mem_cons_self).2⟩
      · have hline := ih (List.mem_cons_of_mem _ hmore)
        exact ⟨hline.1.trans (List.suffix_cons _ _).isInfix, hline.2⟩

/-- The lines of a text without carriage returns can be written again. -/
theorem isLine_of_mem_lines {t line : Text} (ht : '\r' ∉ t) (h : line ∈ lines t) : IsLine line := by
  obtain ⟨hstands, hfeed⟩ := infix_of_mem_lines h
  refine isLine_of_not_mem fun c hc => ?_
  rcases hc with rfl | rfl
  · exact hfeed
  · exact fun hmem => ht (hstands.mem hmem)

/-! ### Indentation -/

/-- What puts `w` in front of each line that is not blank, and leaves blank lines blank. -/
structure Indents (w : Text) (f : Text → Text) : Prop where
  blank (line : Text) : isBlank (f line) = isBlank line
  front {line : Text} (h : isBlank line = false) : f line = w ++ line

/-- White space in front of a line does not make it blank. -/
theorem indents_append {w : Text} (hw : isBlank w = true) : Indents w (w ++ ·) where
  blank line := by rw [isBlank_append, hw, Bool.true_and]
  front _ := rfl

/-- White space in front of a line adds to its indentation. -/
theorem indent_append {w : Text} (hw : isBlank w = true) (line : Text) :
    indent (w ++ line) = w.length + indent line := by
  rw [indent, List.takeWhile_append_of_pos (isBlank_iff.1 hw), List.length_append]
  rfl

/-- Widths that all grow by the same have a least one that grows by it. -/
theorem min?_map_add (width : Nat) (widths : List Nat) :
    (widths.map (width + ·)).min? = widths.min?.map (width + ·) := by
  induction widths with
  | nil => rfl
  | cons n widths ih =>
      rw [List.map_cons, List.min?_cons, List.min?_cons, ih]
      cases widths.min? with
      | none => rfl
      | some m => simp only [Option.map_some, Option.elim_some, Nat.add_min_add_left]

section Indents

variable {w : Text} {f : Text → Text}

/-- Lines that are indented are kept just if they were before. -/
theorem dropOuterBlank_map (hf : Indents w f) (block : List Text) :
    dropOuterBlank (block.map f) = (dropOuterBlank block).map f := by
  have hblank : isBlank ∘ f = isBlank := funext hf.blank
  simp only [dropOuterBlank, List.dropWhile_map, ← List.map_reverse, hblank]

/-- White space in front of the lines adds to the common indentation, unless all are blank. -/
theorem commonIndent_map (hw : isBlank w = true) (hf : Indents w f) {block : List Text}
    {line : Text} (hmem : line ∈ block) (hline : isBlank line = false) :
    commonIndent (block.map f) = w.length + commonIndent block := by
  have hindents : ((block.map f).filter fun l => !isBlank l).map indent =
      ((block.filter fun l => !isBlank l).map indent).map (w.length + ·) := by
    simp only [List.filter_map, List.map_map, Function.comp_def, hf.blank]
    refine List.map_congr_left fun l hl => ?_
    have hfront : isBlank l = false := by simpa using (List.mem_filter.1 hl).2
    rw [hf.front hfront, indent_append hw]
  have hne : ((block.filter fun l => !isBlank l).map indent).min? ≠ none := by
    rw [ne_eq, List.min?_eq_none_iff, List.map_eq_nil_iff, List.filter_eq_nil_iff]
    exact fun hall => hall line hmem (by simp [hline])
  obtain ⟨least, hleast⟩ := Option.ne_none_iff_exists'.1 hne
  rw [commonIndent, commonIndent, hindents, min?_map_add, hleast]
  rfl

/-- **White space in front of all lines leaves no trace.** -/
theorem dedent_map (hw : isBlank w = true) (hf : Indents w f) (block : List Text) :
    dedent (block.map f) = dedent block := by
  simp only [dedent, dropOuterBlank_map hf]
  generalize dropOuterBlank block = kept
  congr 1
  refine List.map_map.trans (List.map_congr_left fun line hmem => ?_)
  rw [Function.comp_apply, hf.blank]
  split
  · rfl
  · next hline =>
    rw [Bool.not_eq_true] at hline
    rw [commonIndent_map hw hf hmem hline, hf.front hline, List.drop_append]
    simp

end Indents

/-! ### Margins -/

/-- Blank space of the given width. -/
def margin (width : Nat) : Text :=
  List.replicate width ' '

/-- The lines with a margin in front of each. -/
def indented (width : Nat) (block : List Text) : List Text :=
  block.map fun line => margin width ++ line

/-- A margin is blank. -/
@[simp] theorem isBlank_margin (width : Nat) : isBlank (margin width) = true :=
  isBlank_replicate_space width

/-- A line is blank behind a margin if it is blank without it. -/
@[simp] theorem isBlank_margin_append (width : Nat) (line : Text) :
    isBlank (margin width ++ line) = isBlank line :=
  (indents_append (isBlank_margin width)).blank line

/-- Behind a margin a line is a line. -/
theorem isLine_margin_append (width : Nat) {line : Text} (h : IsLine line) :
    IsLine (margin width ++ line) := by
  obtain ⟨hfeed, hreturn⟩ := h
  constructor
  · rw [List.mem_append, not_or, margin]
    exact ⟨fun hmem => absurd (List.eq_of_mem_replicate hmem) (by decide), hfeed⟩
  · rw [List.getLast?_append]
    cases hlast : line.getLast? with
    | none =>
        intro hmargin
        have hmem := List.mem_of_getLast? (l := margin width) (by simpa [hlast] using hmargin)
        exact absurd (List.eq_of_mem_replicate hmem) (by decide)
    | some c =>
        rw [hlast] at hreturn
        simpa using hreturn

/-- A margin leaves no trace. -/
theorem dedent_indented (width : Nat) (block : List Text) :
    dedent (indented width block) = dedent block :=
  dedent_map (isBlank_margin width) (indents_append (isBlank_margin width)) block

/-! ### Blank lines at the ends -/

/-- A blank line in front of a block leaves no trace. -/
theorem dedent_cons_blank {blank : Text} (h : isBlank blank = true) (block : List Text) :
    dedent (blank :: block) = dedent block := by
  have houter : dropOuterBlank (blank :: block) = dropOuterBlank block := by
    rw [dropOuterBlank, List.dropWhile_cons_of_pos h]
    rfl
  rw [dedent, houter]
  rfl

/-- A blank line behind a block leaves no trace. -/
theorem dedent_concat_blank {blank : Text} (h : isBlank blank = true) (block : List Text) :
    dedent (block ++ [blank]) = dedent block := by
  have houter : dropOuterBlank (block ++ [blank]) = dropOuterBlank block := by
    rw [dropOuterBlank, List.dropWhile_append]
    split
    · next hall =>
      rw [List.isEmpty_iff] at hall
      rw [dropOuterBlank, hall, List.dropWhile_cons_of_pos h]
      rfl
    · rw [List.reverse_append, List.reverse_singleton, List.singleton_append,
        List.dropWhile_cons_of_pos h]
      rfl
  rw [dedent, houter]
  rfl

end Guidebook.Text
