import Guidebook.Proofs.Text.ExactDedenting

/-!
# Margins

A text whose lines begin with `|` has a margin, which `Text.trimMargin` takes off together with the
blanks in front of it. Dedenting and trimming take nothing off that can be seen, and so they leave
all margins where they are. They give what `Text.trimMargin` gives only for lines without any.

## Main results

* `Text.ink_trim`, `Text.ink_dedent`: what can be seen stays.
* `Text.eq_trimMargin_iff`: **when nothing visible is taken off**.
-/

namespace Guidebook.Text

/-! ### What can be seen -/

/-- The characters of a text that are not white space. -/
def ink (t : Text) : Text :=
  t.filter fun c => !isSpace c

theorem ink_append (s t : Text) : ink (s ++ t) = ink s ++ ink t :=
  List.filter_append ..

/-- White space cannot be seen. -/
theorem ink_of_isBlank {t : Text} (h : isBlank t = true) : ink t = [] := by
  rw [ink, List.filter_eq_nil_iff]
  intro c hc
  simp [isBlank_iff.1 h c hc]

/-- Trimming takes nothing off that can be seen. -/
theorem ink_trim (t : Text) : ink (trim t) = ink t :=
  filter_trim t

/-- Line feeds between pieces cannot be seen. -/
theorem ink_join_feed (pieces : List Text) :
    ink (join ['\n'] pieces) = pieces.flatMap ink := by
  fun_induction join ['\n'] pieces with
  | case1 => rfl
  | case2 piece => simp
  | case3 piece next pieces ih =>
      rw [ink_append, ink_append, ih,
        ink_of_isBlank (by decide : isBlank ['\n'] = true), List.append_nil,
        ← List.flatMap_cons]

/-- Of blank lines nothing can be seen. -/
theorem flatMap_ink_between {above below : List Text}
    (habove : ∀ line ∈ above, isBlank line = true)
    (hbelow : ∀ line ∈ below, isBlank line = true) (core : List Text) :
    (above ++ core ++ below).flatMap ink = core.flatMap ink := by
  have hblank : ∀ {block : List Text}, (∀ line ∈ block, isBlank line = true) →
      block.flatMap ink = [] := fun h =>
    List.flatMap_eq_nil_iff.2 fun line hline => ink_of_isBlank (h line hline)
  rw [List.flatMap_append, List.flatMap_append, hblank habove, hblank hbelow, List.nil_append,
    List.append_nil]

/-- Taking indentation off a line takes nothing off that can be seen. -/
theorem Unindents.ink_eq {width : Nat} {line left : Text} (h : Unindents width line left) :
    ink left = ink line := by
  cases hline : isBlank line with
  | true => rw [h.blank hline, ink_of_isBlank hline, ink_of_isBlank (by decide)]
  | false =>
      obtain ⟨front, -, hfront, rfl⟩ := h.front hline
      rw [ink_append, ink_of_isBlank hfront, List.nil_append]

/-- **Dedenting takes nothing off that can be seen.** -/
theorem ink_dedent (block : List Text) : ink (dedent block) = block.flatMap ink := by
  obtain ⟨above, below, hblock, habove, hbelow⟩ := (isCore_dropOuterBlank block).between
  have hcore : block.flatMap ink = (dropOuterBlank block).flatMap ink := by
    conv_lhs => rw [hblock]
    exact flatMap_ink_between habove hbelow _
  rw [dedent_eq_join, ink_join_feed, hcore, dedentedLines, List.flatMap_map]
  refine List.flatMap_congr fun line hline => Unindents.ink_eq (unindents_unindent ?_)
  exact fun hblank => commonIndent_le hline hblank

/-! ### Lines with a margin -/

/-- Whether the first character of a line that is not blank is `|`. -/
def hasMargin (line : Text) : Bool :=
  (trimStart line).head? = some '|'

/-- The line without its margin and the blanks in front of it. -/
def withoutMargin (line : Text) : Text :=
  if hasMargin line then (trimStart line).tail else line

/-- The lines without the first and without the last of them, if these are blank. -/
def dropBlankEnds (block : List Text) : List Text :=
  let block := if block.head?.any isBlank then block.tail else block
  if block.getLast?.any isBlank then block.dropLast else block

/-- The lines without their margins, as one text. -/
def trimMargin (block : List Text) : Text :=
  join ['\n'] ((dropBlankEnds block).map withoutMargin)

/-- A blank line has no margin. -/
theorem hasMargin_of_isBlank {line : Text} (h : isBlank line = true) : hasMargin line = false := by
  have hnil : trimStart line = [] := List.dropWhile_eq_nil_iff.2 (isBlank_iff.1 h)
  rw [hasMargin, hnil]
  rfl

/-- A margin can be seen. -/
theorem ink_eq_of_hasMargin {line : Text} (h : hasMargin line = true) :
    ink line = '|' :: ink (withoutMargin line) := by
  have hfront : ink line = ink (trimStart line) := by
    conv_lhs => rw [← List.takeWhile_append_dropWhile (p := isSpace) (l := line)]
    rw [ink_append, ink_of_isBlank (isBlank_iff.2 fun _ hc => List.mem_takeWhile_imp hc)]
    rfl
  obtain ⟨rest, hrest⟩ := List.head?_eq_some_iff.1 (of_decide_eq_true h)
  rw [hfront, withoutMargin, if_pos h, hrest, List.tail_cons, ink,
    List.filter_cons_of_pos (by decide)]
  rfl

/-- What can be seen of lines is what can be seen without their margins, and these. -/
theorem length_ink (block : List Text) :
    (block.flatMap ink).length =
      ((block.map withoutMargin).flatMap ink).length + block.countP hasMargin := by
  induction block with
  | nil => rfl
  | cons line block ih =>
      rw [List.map_cons, List.flatMap_cons, List.flatMap_cons, List.length_append,
        List.length_append, ih]
      cases hline : hasMargin line with
      | true =>
          rw [ink_eq_of_hasMargin hline, List.countP_cons_of_pos hline, List.length_cons]
          omega
      | false =>
          rw [withoutMargin, hline, List.countP_cons_of_neg (by simp [hline])]
          simp only [Bool.false_eq_true, if_false]
          omega

/-- The lines at the ends are dropped only if they are blank. -/
theorem exists_dropBlankEnds (block : List Text) :
    ∃ above below, block = above ++ dropBlankEnds block ++ below ∧
      (∀ line ∈ above, isBlank line = true) ∧ ∀ line ∈ below, isBlank line = true := by
  have hlast : ∀ block : List Text, ∃ below,
      block = (if block.getLast?.any isBlank then block.dropLast else block) ++ below ∧
        ∀ line ∈ below, isBlank line = true := by
    intro block
    split
    · next hblank =>
      obtain ⟨last, hlast, hblank⟩ := (Option.any_eq_true _ _).1 hblank
      exact ⟨[last], (List.dropLast_append_getLast? last hlast).symm,
        List.forall_mem_singleton.2 hblank⟩
    · exact ⟨[], (List.append_nil _).symm, List.forall_mem_nil _⟩
  rw [dropBlankEnds]
  split
  · next hblank =>
    cases block with
    | nil => cases hblank
    | cons first rest =>
        obtain ⟨below, hbelow, hblanks⟩ := hlast rest
        refine ⟨[first], below, ?_, List.forall_mem_singleton.2 hblank, hblanks⟩
        rw [List.tail_cons, List.append_assoc, ← hbelow]
        rfl
  · obtain ⟨below, hbelow, hblanks⟩ := hlast block
    exact ⟨[], below, hbelow, List.forall_mem_nil _, hblanks⟩

/-- **When nothing visible is taken off.** A text of which just as much can be seen as of the lines
is what is left of them without their margins only if none has a margin. -/
theorem eq_trimMargin_iff {block : List Text} {t : Text} (h : ink t = block.flatMap ink) :
    t = trimMargin block ↔
      (∀ line ∈ block, hasMargin line = false) ∧ t = join ['\n'] (dropBlankEnds block) := by
  obtain ⟨above, below, hblock, habove, hbelow⟩ := exists_dropBlankEnds block
  have hseen : block.flatMap ink = (dropBlankEnds block).flatMap ink := by
    conv_lhs => rw [hblock]
    exact flatMap_ink_between habove hbelow _
  have hmargins : (∀ line ∈ block, hasMargin line = false) ↔
      ∀ line ∈ dropBlankEnds block, hasMargin line = false := by
    conv_lhs => rw [hblock]
    rw [List.forall_mem_append, List.forall_mem_append]
    constructor
    · exact fun hall => hall.1.2
    · exact fun hall => ⟨⟨fun line hline => hasMargin_of_isBlank (habove line hline), hall⟩,
        fun line hline => hasMargin_of_isBlank (hbelow line hline)⟩
  have hjoin : (∀ line ∈ block, hasMargin line = false) →
      trimMargin block = join ['\n'] (dropBlankEnds block) := by
    intro hall
    refine congrArg (join ['\n']) ((List.map_congr_left fun line hline => ?_).trans (List.map_id _))
    exact if_neg (by simp [hmargins.1 hall line hline])
  constructor
  · rintro rfl
    have hcount := length_ink (dropBlankEnds block)
    rw [trimMargin, ink_join_feed] at h
    rw [← hseen, ← h, Nat.left_eq_add, List.countP_eq_zero] at hcount
    have hnone := hmargins.2 fun line hline => Bool.eq_false_iff.2 (hcount line hline)
    exact ⟨hnone, hjoin hnone⟩
  · rintro ⟨hall, rfl⟩
    exact (hjoin hall).symm

end Guidebook.Text
