import Guidebook.Proofs.Text.Dedenting
import Mathlib.Data.List.Forall2
import Mathlib.Order.Bounds.Basic

/-!
# What Dedenting Takes Away

Dedenting is exact: of a block it leaves the lines from the first to the last that is not blank, and
of these it takes away the white space that they have in common, as much of it as there is and
nothing else. It can be told from the lines of the dedented text, since none of them holds a line
feed.

## Main results

* `Text.isCore_dropOuterBlank`, `Text.isLeast_commonIndent`: which lines are left, and how much is
  taken off them.
* `Text.splitOn_dedent`: the lines of the dedented text.
* `Text.dedent_exact`: **dedenting is exact**.
-/

namespace Guidebook.Text

/-! ### From the first to the last line -/

/-- The lines are those of a block from the first to the last that is not blank. -/
structure IsCore (block core : List Text) : Prop where
  between : ∃ above below, block = above ++ core ++ below ∧
    (∀ line ∈ above, isBlank line = true) ∧ ∀ line ∈ below, isBlank line = true
  first : ∀ line ∈ core.head?, isBlank line = false
  last : ∀ line ∈ core.getLast?, isBlank line = false

/-- Dedenting leaves the lines from the first to the last that is not blank. -/
theorem isCore_dropOuterBlank (block : List Text) : IsCore block (dropOuterBlank block) where
  between := by
    refine ⟨block.takeWhile isBlank, (block.dropWhile isBlank).rtakeWhile isBlank, ?_,
      fun _ hline => List.mem_takeWhile_imp hline, fun _ hline => List.mem_rtakeWhile_imp hline⟩
    have hbelow : dropOuterBlank block ++ (block.dropWhile isBlank).rtakeWhile isBlank =
        block.dropWhile isBlank :=
      List.rdropWhile_append_rtakeWhile
    rw [List.append_assoc, hbelow, List.takeWhile_append_dropWhile]
  first := head?_dropOuterBlank
  last := getLast?_dropOuterBlank

/-- The core of a block holds all of its lines that are not blank, and no line of another block. -/
theorem IsCore.mem_iff {block core : List Text} (h : IsCore block core) {line : Text}
    (hline : isBlank line = false) : line ∈ core ↔ line ∈ block := by
  obtain ⟨above, below, rfl, habove, hbelow⟩ := h.between
  have hnot : ∀ {l}, isBlank l = true → line ≠ l := by
    rintro l hl rfl
    exact absurd (hl.symm.trans hline) (by decide)
  constructor
  · intro hmem
    simp [hmem]
  · intro hmem
    rcases List.mem_append.1 hmem with hmem | hmem
    · rcases List.mem_append.1 hmem with hmem | hmem
      · exact absurd rfl (hnot (habove line hmem))
      · exact hmem
    · exact absurd rfl (hnot (hbelow line hmem))

/-! ### The indentation in common -/

/-- The width is the least number of white space characters in front of a line that is not blank. -/
def IsLeastIndent (block : List Text) (width : Nat) : Prop :=
  IsLeast {n | ∃ line ∈ block, isBlank line = false ∧ indent line = n} width

/-- The common indentation is the least one, if there is any line that is not blank. -/
theorem isLeast_commonIndent {block : List Text} {line : Text} (h : line ∈ block)
    (hline : isBlank line = false) : IsLeastIndent block (commonIndent block) := by
  refine ⟨exists_indent_eq h hline, ?_⟩
  rintro n ⟨other, hother, hblank, rfl⟩
  exact commonIndent_le hother hblank

/-- Blank lines around a block have no indentation in common with it. -/
theorem IsCore.isLeastIndent_iff {block core : List Text} (h : IsCore block core) (width : Nat) :
    IsLeastIndent core width ↔ IsLeastIndent block width := by
  have hset : {n | ∃ line ∈ core, isBlank line = false ∧ indent line = n} =
      {n | ∃ line ∈ block, isBlank line = false ∧ indent line = n} := by
    ext n
    refine exists_congr fun line => ?_
    rw [and_left_comm, and_left_comm (a := line ∈ block)]
    exact and_congr_right fun hline => and_congr_left fun _ => h.mem_iff hline
  rw [IsLeastIndent, IsLeastIndent, hset]

/-- Taking `width` characters off a line takes white space only; of a blank line nothing is left. -/
structure Unindents (width : Nat) (line left : Text) : Prop where
  blank : isBlank line = true → left = []
  front : isBlank line = false →
    ∃ front, front.length = width ∧ isBlank front = true ∧ line = front ++ left

/-- Relative indentation is kept. -/
theorem Unindents.indent_eq {width : Nat} {line left : Text} (h : Unindents width line left)
    (hline : isBlank line = false) : indent line = width + indent left := by
  obtain ⟨front, rfl, hfront, rfl⟩ := h.front hline
  exact indent_append hfront left

/-- A line that has so much indentation loses just that. -/
theorem unindents_unindent {width : Nat} {line : Text}
    (h : isBlank line = false → width ≤ indent line) :
    Unindents width line (unindent width line) where
  blank hline := unindent_of_isBlank hline width
  front hline := by
    have hwidth := h hline
    have hfront : line.take width <+: line.takeWhile isSpace :=
      List.prefix_of_prefix_length_le (List.take_prefix _ _) (List.takeWhile_prefix _)
        ((List.length_take_le _ _).trans hwidth)
    refine ⟨line.take width, ?_,
      isBlank_iff.2 fun c hc => List.mem_takeWhile_imp (hfront.subset hc), ?_⟩
    · rw [List.length_take]
      exact min_eq_left (hwidth.trans (List.takeWhile_prefix _).length_le)
    · rw [unindent_eq_drop hline, List.take_append_drop]

/-! ### The dedented text -/

/-- The text is empty only if there is nothing to see in the block. -/
theorem dedent_eq_nil_iff {block : List Text} :
    dedent block = [] ↔ ∀ line ∈ block, isBlank line = true := by
  rw [← dedentedLines_eq_nil_iff, dedent_eq_join]
  cases hlines : dedentedLines block with
  | nil => exact iff_of_true rfl rfl
  | cons first rest =>
      have hfirst : first ≠ [] := by
        rintro rfl
        exact absurd ((isDedented_dedentedLines block).first [] (by rw [hlines]; rfl)) (by decide)
      refine iff_of_false (fun hnil => hfirst ?_) (List.cons_ne_nil first rest)
      cases rest <;> simp_all [join]

/-- **The lines of the dedented text** are those that dedenting leaves. -/
theorem splitOn_dedent {block : List Text} (h : ∀ line ∈ block, '\n' ∉ line)
    (hsome : ∃ line ∈ block, isBlank line = false) :
    splitOn '\n' (dedent block) = dedentedLines block := by
  obtain ⟨line, hmem, hline⟩ := hsome
  rw [dedent_eq_join]
  refine splitOn_join (fun hnil => ?_) fun l hl hfeed => ?_
  · exact absurd (dedentedLines_eq_nil_iff.1 hnil line hmem) (by simp [hline])
  · obtain ⟨other, hother, hsuffix⟩ := exists_suffix_of_mem_dedentedLines hl
    exact h other hother (hsuffix.subset hfeed)

/-- Dedenting the lines of a dedented text changes nothing. -/
theorem dedent_splitOn_dedent {block : List Text} (h : ∀ line ∈ block, '\n' ∉ line) :
    dedent (splitOn '\n' (dedent block)) = dedent block := by
  by_cases hsome : ∃ line ∈ block, isBlank line = false
  · rw [splitOn_dedent h hsome, (isDedented_dedentedLines block).dedent_eq, dedent_eq_join]
  · have hnil : dedent block = [] := dedent_eq_nil_iff.2 (by simpa using hsome)
    rw [hnil]
    rfl

/-- Blank lines at the ends leave no trace. -/
theorem dedent_between_blanks {above below : List Text}
    (habove : ∀ line ∈ above, isBlank line = true)
    (hbelow : ∀ line ∈ below, isBlank line = true) (block : List Text) :
    dedent (above ++ block ++ below) = dedent block := by
  induction below using List.reverseRecOn with
  | nil =>
      rw [List.append_nil]
      induction above with
      | nil => rfl
      | cons line above ih =>
          obtain ⟨hline, hrest⟩ := List.forall_mem_cons.1 habove
          rw [List.cons_append, dedent_cons_blank hline, ih hrest]
  | append_singleton below line ih =>
      obtain ⟨hrest, hline⟩ := List.forall_mem_append.1 hbelow
      rw [← List.append_assoc, dedent_concat_blank (hline line (List.mem_singleton_self line)),
        ih hrest]

/-- White space in front of each line that is not blank. -/
theorem indents_ite {w : Text} (hw : isBlank w = true) :
    Indents w fun line => if isBlank line then line else w ++ line where
  blank line := by
    split
    · rfl
    · rw [isBlank_append, hw, Bool.true_and]
  front hline := if_neg (by simp [hline])

/-- The lines are what is left of a block: its lines from the first to the last that is not blank,
each without the indentation that they have in common, and one of them without any indentation. -/
def IsLeftOf (block left : List Text) : Prop :=
  ∃ core width, IsCore block core ∧ IsLeastIndent block width ∧
    List.Forall₂ (Unindents width) core left ∧
    ∃ line ∈ left, isBlank line = false ∧ indent line = 0

/-- If there is anything to see in a block, dedenting leaves its core without the indentation in
common. -/
theorem isLeftOf_dedentedLines {block : List Text} (hsome : ∃ line ∈ block, isBlank line = false) :
    IsLeftOf block (dedentedLines block) := by
  obtain ⟨line, hmem, hline⟩ := hsome
  have hcore := isCore_dropOuterBlank block
  have hleast := isLeast_commonIndent ((hcore.mem_iff hline).2 hmem) hline
  have hunindents : ∀ l ∈ dropOuterBlank block, Unindents (commonIndent (dropOuterBlank block)) l
      (unindent (commonIndent (dropOuterBlank block)) l) := fun l hl =>
    unindents_unindent fun hblank => commonIndent_le hl hblank
  refine ⟨_, _, hcore, (hcore.isLeastIndent_iff _).1 hleast, ?_, ?_⟩
  · rw [dedentedLines, List.forall₂_map_right_iff, List.forall₂_same]
    exact hunindents
  · obtain ⟨least, hmem, hblank, hindent⟩ := hleast.1
    refine ⟨_, List.mem_map_of_mem hmem, (unindent_common hmem hblank).1, ?_⟩
    have hrelative := (hunindents least hmem).indent_eq hblank
    omega

/-- **Dedenting is exact.** Take lines without line feeds. Their dedented text is empty if all of
them are blank, and only then; otherwise its lines are the lines from the first to the last that is
not blank, a blank one emptied, and each other one without just so many characters as the least
indented of them has in front, all of which are white space. Dedenting its lines again changes
nothing; and neither white space in front of all lines that are not blank nor blank lines at the
ends change it. -/
theorem dedent_exact {block : List Text} (h : ∀ line ∈ block, '\n' ∉ line) :
    (dedent block = [] ↔ ∀ line ∈ block, isBlank line = true) ∧
      ((∃ line ∈ block, isBlank line = false) → IsLeftOf block (splitOn '\n' (dedent block))) ∧
      dedent (splitOn '\n' (dedent block)) = dedent block ∧
      (∀ w, isBlank w = true →
        dedent (block.map fun line => if isBlank line then line else w ++ line) = dedent block) ∧
      ∀ above below, (∀ line ∈ above, isBlank line = true) → (∀ line ∈ below, isBlank line = true) →
        dedent (above ++ block ++ below) = dedent block := by
  refine ⟨dedent_eq_nil_iff, fun hsome => ?_, dedent_splitOn_dedent h, fun w hw => ?_,
    fun above below habove hbelow => dedent_between_blanks habove hbelow block⟩
  · rw [splitOn_dedent h hsome]
    exact isLeftOf_dedentedLines hsome
  · exact dedent_map hw (indents_ite hw) block

/-- Two characters are taken off, a tab and a blank of whichever width; the line between is
shorter. -/
theorem dedent_exact_of_mixed_indentation :
    (∀ line ∈ [" ".toList, "\t  one".toList, [], "\t\u3000two".toList], '\n' ∉ line) ∧
      (∃ line ∈ [" ".toList, "\t  one".toList, [], "\t\u3000two".toList], isBlank line = false) ∧
      dedent [" ".toList, "\t  one".toList, [], "\t\u3000two".toList] = " one\n\ntwo".toList ∧
      IsLeftOf [" ".toList, "\t  one".toList, [], "\t\u3000two".toList]
        (splitOn '\n' " one\n\ntwo".toList) ∧
      dedent ([" ".toList, "\t  one".toList, [], "\t\u3000two".toList].map fun line =>
        if isBlank line then line else "\u3000".toList ++ line) = " one\n\ntwo".toList := by
  have hfeed : ∀ line ∈ [" ".toList, "\t  one".toList, [], "\t\u3000two".toList], '\n' ∉ line := by
    decide
  have hsome : ∃ line ∈ [" ".toList, "\t  one".toList, [], "\t\u3000two".toList],
      isBlank line = false := by
    decide
  have hdedent : dedent [" ".toList, "\t  one".toList, [], "\t\u3000two".toList] =
      " one\n\ntwo".toList := by
    decide
  obtain ⟨-, hlines, -, hmargin, -⟩ := dedent_exact hfeed
  have hleft := hlines hsome
  have hfront := hmargin "\u3000".toList (by decide)
  rw [hdedent] at hleft hfront
  exact ⟨hfeed, hsome, hdedent, hleft, hfront⟩

end Guidebook.Text
