import Guidebook.Proofs.Text.Lines
import Guidebook.Proofs.Text.Pieces

/-!
# Dedented Blocks

What is left of a block of lines when it is dedented: lines of which the first and the last are not
blank, in which a blank line is empty, and of which at least one has no indentation. Dedenting such
lines again changes nothing, and so does indenting and dedenting them.

## Main results

* `Text.isDedented_dedentedLines`: the lines that dedenting leaves are dedented.
* `Text.IsDedented.dedent_map`: they are found again behind any white space.
* `Text.lines_join`: they are the lines of the dedented text.
-/

namespace Guidebook.Text

/-- The lines are such as dedenting leaves. -/
structure IsDedented (block : List Text) : Prop where
  first : ∀ line ∈ block.head?, isBlank line = false
  last : ∀ line ∈ block.getLast?, isBlank line = false
  blank : ∀ line ∈ block, isBlank line = true → line = []
  flush : commonIndent block = 0

/-! ### Common indentation -/

/-- A line that is not blank has at least the common indentation. -/
theorem commonIndent_le {block : List Text} {line : Text} (h : line ∈ block)
    (hline : isBlank line = false) : commonIndent block ≤ indent line := by
  have hmem : indent line ∈ (block.filter fun l => !isBlank l).map indent :=
    List.mem_map_of_mem (List.mem_filter.2 ⟨h, by simp [hline]⟩)
  exact List.min?_getD_le_of_mem hmem

/-- Some line has no more than the common indentation. -/
theorem exists_indent_eq {block : List Text} {line : Text} (h : line ∈ block)
    (hline : isBlank line = false) :
    ∃ least ∈ block, isBlank least = false ∧ indent least = commonIndent block := by
  have hne : (block.filter fun l => !isBlank l).map indent ≠ [] :=
    List.ne_nil_of_mem (List.mem_map_of_mem (List.mem_filter.2 ⟨h, by simp [hline]⟩))
  obtain ⟨width, hwidth⟩ :=
    Option.ne_none_iff_exists'.1 (List.min?_eq_none_iff.not.2 hne)
  obtain ⟨least, hleast, hindent⟩ := List.mem_map.1 (List.min?_mem hwidth)
  rw [List.mem_filter] at hleast
  refine ⟨least, hleast.1, by simpa using hleast.2, ?_⟩
  rw [commonIndent, hwidth, hindent]
  rfl

/-- There is no common indentation if a line that is not blank has none. -/
theorem commonIndent_eq_zero {block : List Text} {line : Text} (h : line ∈ block)
    (hline : isBlank line = false) (hindent : indent line = 0) : commonIndent block = 0 :=
  Nat.eq_zero_of_le_zero (hindent ▸ commonIndent_le h hline)

/-! ### Taking indentation off -/

/-- A line is blank if there is nothing behind its indentation. -/
theorem isBlank_dropWhile (line : Text) : isBlank (line.dropWhile isSpace) = isBlank line := by
  conv_rhs => rw [← List.takeWhile_append_dropWhile (p := isSpace) (l := line)]
  rw [isBlank_append, isBlank_iff.2 fun c hc => List.mem_takeWhile_imp hc, Bool.true_and]

/-- A line without part of its indentation. -/
theorem drop_eq_append {line : Text} {width : Nat} (h : width ≤ indent line) :
    line.drop width = (line.takeWhile isSpace).drop width ++ line.dropWhile isSpace := by
  conv_lhs => rw [← List.takeWhile_append_dropWhile (p := isSpace) (l := line)]
  exact List.drop_append_of_le_length h

section Drop

variable {line : Text} {width : Nat}

/-- What is left of an indentation is blank. -/
theorem isBlank_drop_takeWhile : isBlank ((line.takeWhile isSpace).drop width) = true :=
  isBlank_iff.2 fun _ hc => List.mem_takeWhile_imp (List.mem_of_mem_drop hc)

/-- Taking indentation off a line takes nothing else. -/
theorem isBlank_drop (h : width ≤ indent line) : isBlank (line.drop width) = isBlank line := by
  rw [drop_eq_append h, isBlank_append, isBlank_drop_takeWhile, isBlank_dropWhile, Bool.true_and]

/-- Taking indentation off a line leaves the rest of it. -/
theorem indent_drop (h : width ≤ indent line) : indent (line.drop width) = indent line - width := by
  have hflush : indent (line.dropWhile isSpace) = 0 := by
    have hhead := List.head?_dropWhile_not isSpace line
    rw [indent, List.length_eq_zero_iff]
    cases hdrop : line.dropWhile isSpace with
    | nil => rfl
    | cons c rest =>
        rw [hdrop] at hhead
        exact List.takeWhile_cons_of_neg (by simpa using hhead)
  rw [drop_eq_append h, indent_append isBlank_drop_takeWhile, hflush, List.length_drop]
  rfl

end Drop

/-! ### What dedenting leaves -/

section Leaves

variable {block : List Text} {line : Text}

/-- The first of the lines that are kept is not blank. -/
theorem head?_dropOuterBlank :
    ∀ line ∈ (dropOuterBlank block).head?, isBlank line = false := by
  intro line hline
  have hfront : dropOuterBlank block <+: block.dropWhile isBlank :=
    List.rdropWhile_prefix (p := isBlank) (l := block.dropWhile isBlank)
  obtain ⟨rest, hrest⟩ := hfront
  have hhead := List.head?_dropWhile_not isBlank block
  rw [← hrest, List.head?_append, hline] at hhead
  simpa using hhead

/-- The last of the lines that are kept is not blank. -/
theorem getLast?_dropOuterBlank :
    ∀ line ∈ (dropOuterBlank block).getLast?, isBlank line = false := by
  intro line hline
  have hne : (block.dropWhile isBlank).rdropWhile isBlank ≠ [] := by
    intro hnil
    rw [show dropOuterBlank block = [] from hnil] at hline
    simp at hline
  have hlast := List.rdropWhile_last_not isBlank (block.dropWhile isBlank) hne
  obtain rfl := Option.some.inj ((List.getLast?_eq_some_getLast hne).symm.trans hline)
  simpa using hlast

/-- The lines that are kept are lines of the block. -/
theorem mem_of_mem_dropOuterBlank (h : line ∈ dropOuterBlank block) : line ∈ block := by
  have hsub : dropOuterBlank block <:+: block :=
    (List.rdropWhile_prefix (p := isBlank) (l := block.dropWhile isBlank)).isInfix.trans
      (List.dropWhile_suffix isBlank).isInfix
  exact hsub.subset h

/-- A block is dropped as a whole only if all its lines are blank. -/
theorem dropOuterBlank_eq_nil_iff :
    dropOuterBlank block = [] ↔ ∀ line ∈ block, isBlank line = true := by
  rw [dropOuterBlank, List.reverse_eq_nil_iff, List.dropWhile_eq_nil_iff]
  constructor
  · intro h line hline
    rw [← List.takeWhile_append_dropWhile (p := isBlank) (l := block)] at hline
    rcases List.mem_append.1 hline with htake | hdrop
    · exact List.mem_takeWhile_imp htake
    · exact h line (List.mem_reverse.2 hdrop)
  · intro h line hline
    exact h line ((List.dropWhile_suffix isBlank).subset (List.mem_reverse.1 hline))

/-- A line without so much of its indentation, or without all of it if the line is blank. -/
def unindent (width : Nat) (line : Text) : Text :=
  if isBlank line then [] else line.drop width

/-- The lines that dedenting leaves of a block. -/
def dedentedLines (block : List Text) : List Text :=
  (dropOuterBlank block).map (unindent (commonIndent (dropOuterBlank block)))

/-- The dedented text consists of the dedented lines. -/
theorem dedent_eq_join (block : List Text) :
    dedent block = join ['\n'] (dedentedLines block) := rfl

/-- Of a blank line nothing is left. -/
theorem unindent_of_isBlank (h : isBlank line = true) (width : Nat) : unindent width line = [] :=
  if_pos h

/-- A line that is not blank loses its first characters. -/
theorem unindent_eq_drop (h : isBlank line = false) (width : Nat) :
    unindent width line = line.drop width :=
  if_neg (by simp [h])

/-- What is left of a line is its end. -/
theorem unindent_suffix (width : Nat) (line : Text) : unindent width line <:+ line := by
  rw [unindent]
  split
  · exact List.nil_suffix
  · exact List.drop_suffix width line

/-- Dedenting leaves lines that are not blank as they are, but for their common indentation. -/
theorem unindent_common (hmem : line ∈ block) (h : isBlank line = false) :
    isBlank (unindent (commonIndent block) line) = false ∧
      indent (unindent (commonIndent block) line) = indent line - commonIndent block := by
  have hle := commonIndent_le hmem h
  rw [unindent_eq_drop h]
  exact ⟨(isBlank_drop hle).trans h, indent_drop hle⟩

/-- Dedenting leaves a line without indentation. -/
theorem commonIndent_dedentedLines (block : List Text) :
    commonIndent (dedentedLines block) = 0 := by
  cases hkept : dropOuterBlank block with
  | nil =>
      rw [dedentedLines, hkept]
      rfl
  | cons first rest =>
      have hhead : first ∈ (dropOuterBlank block).head? := by
        rw [hkept]
        rfl
      obtain ⟨least, hleast, hline, hindent⟩ :=
        exists_indent_eq (List.mem_of_mem_head? hhead) (head?_dropOuterBlank first hhead)
      obtain ⟨hblank, hflush⟩ := unindent_common hleast hline
      refine commonIndent_eq_zero (List.mem_map_of_mem hleast) hblank ?_
      rw [hflush, hindent]
      exact Nat.sub_self _

/-- **What dedenting leaves** are dedented lines. -/
theorem isDedented_dedentedLines (block : List Text) : IsDedented (dedentedLines block) where
  first := by
    intro l hl
    rw [dedentedLines, List.head?_map, Option.mem_def, Option.map_eq_some_iff] at hl
    obtain ⟨line, hhead, rfl⟩ := hl
    exact (unindent_common (List.mem_of_mem_head? hhead) (head?_dropOuterBlank line hhead)).1
  last := by
    intro l hl
    rw [dedentedLines, List.getLast?_map, Option.mem_def, Option.map_eq_some_iff] at hl
    obtain ⟨line, hlast, rfl⟩ := hl
    exact (unindent_common (List.mem_of_getLast? hlast) (getLast?_dropOuterBlank line hlast)).1
  blank := by
    intro l hl hblank
    obtain ⟨line, hmem, rfl⟩ := List.mem_map.1 hl
    cases hline : isBlank line with
    | true => exact unindent_of_isBlank hline _
    | false => exact absurd hblank (by simp [(unindent_common hmem hline).1])
  flush := commonIndent_dedentedLines block

/-- The lines that dedenting leaves are the ends of lines of the block. -/
theorem exists_suffix_of_mem_dedentedLines {l : Text} (h : l ∈ dedentedLines block) :
    ∃ line ∈ block, l <:+ line := by
  obtain ⟨line, hmem, rfl⟩ := List.mem_map.1 h
  exact ⟨line, mem_of_mem_dropOuterBlank hmem, unindent_suffix _ line⟩

/-- Dedenting leaves no lines only if all lines of the block are blank. -/
theorem dedentedLines_eq_nil_iff :
    dedentedLines block = [] ↔ ∀ line ∈ block, isBlank line = true := by
  rw [dedentedLines, List.map_eq_nil_iff, dropOuterBlank_eq_nil_iff]

end Leaves

/-! ### Dedented lines -/

namespace IsDedented

variable {block : List Text}

/-- There are no blank lines around dedented lines. -/
theorem dropOuterBlank_eq (h : IsDedented block) : dropOuterBlank block = block := by
  have hfirst : block.dropWhile isBlank = block := by
    cases block with
    | nil => rfl
    | cons first rest => exact List.dropWhile_cons_of_neg (by simp [h.first first rfl])
  have hlast : block.rdropWhile isBlank = block :=
    List.rdropWhile_eq_self_iff.2 fun hne => by
      simp [h.last _ (List.getLast?_eq_some_getLast hne)]
  rw [dropOuterBlank, hfirst]
  exact hlast

/-- Dedented lines are dedented already. -/
theorem dedent_eq (h : IsDedented block) : dedent block = join ['\n'] block := by
  rw [dedent, h.dropOuterBlank_eq, h.flush]
  refine congrArg (join ['\n']) ((List.map_congr_left fun line hline => ?_).trans (List.map_id _))
  split
  · next hblank => exact (h.blank line hline hblank).symm
  · rfl

/-- **Dedented lines are found again** behind any white space. -/
theorem dedent_map (h : IsDedented block) {w : Text} {f : Text → Text} (hw : isBlank w = true)
    (hf : Indents w f) : dedent (block.map f) = join ['\n'] block :=
  (Text.dedent_map hw hf block).trans h.dedent_eq

/-- A line without indentation in front of dedented lines. -/
theorem cons_flush (h : IsDedented block) {first : Text} (hfirst : first.head?.any isSpace = false)
    (hne : first ≠ []) : IsDedented (first :: block) := by
  obtain ⟨c, rest, rfl⟩ := List.exists_cons_of_ne_nil hne
  have hc : isSpace c = false := by simpa using hfirst
  have hblank : isBlank (c :: rest) = false := by simp [isBlank, hc]
  refine ⟨fun line hline => ?_, fun line hline => ?_, fun line hline hl => ?_, ?_⟩
  · obtain rfl := Option.some.inj hline
    exact hblank
  · rw [List.getLast?_cons] at hline
    cases hlast : block.getLast? with
    | none =>
        rw [hlast] at hline
        obtain rfl := Option.some.inj hline
        exact hblank
    | some last =>
        rw [hlast] at hline
        obtain rfl := Option.some.inj hline
        exact h.last last hlast
  · rcases List.mem_cons.1 hline with rfl | hline
    · exact absurd hl (by simp [hblank])
    · exact h.blank line hline hl
  · exact commonIndent_eq_zero List.mem_cons_self hblank (by simp [indent, hc])

end IsDedented

/-! ### The lines of a dedented text -/

/-- **The lines of joined lines** are these, if the last is not empty. -/
theorem lines_join {block : List Text} (h : ∀ line ∈ block, IsLine line)
    (hlast : ∀ line ∈ block.getLast?, line ≠ []) : lines (join ['\n'] block) = block := by
  fun_induction join ['\n'] block with
  | case1 => rfl
  | case2 line => exact lines_of_not_mem (hlast line rfl) (h line List.mem_cons_self).1
  | case3 line next more ih =>
      obtain ⟨hline, hmore⟩ := List.forall_mem_cons.1 h
      rw [List.append_assoc, List.singleton_append, lines_append_feed hline]
      rw [ih hmore fun l hl => hlast l (by rwa [List.getLast?_cons_cons])]

end Guidebook.Text
