import Guidebook.Guide.Publication
import Guidebook.Proofs.Guide.LineNumbers

/-!
# The Lines That Errors Name

An error tells its reader at which line to look. In front of it, the lines of the source are a
stretch of complete items, as long as it can be; behind them an item begins that cannot be read, and
the error names one of its lines. Which one, depends on what is wrong. It is the first line of the
item, but for two kinds of errors: where a text or a block of code does not end, it is the line on
which it begins, which may be some lines below its marker; and where something follows a text, it is
the line with the closing quotes. No such line is blank.

Only where `fun main` or its end is missing there is no such item: all items are complete, and the
error names the last line.

## Main results

* `Guide.NamedAt`: **which line of an item an error names**.
* `Guide.Reader.namesLine_of_step`, `Guide.Reader.namesLine_of_finish`: a line that is rejected, and
  an item that does not end.
* `Guide.Reader.run_reached_up_to`: the complete items in front of the item being read.
* `Guide.line_of_rejection`: rejections point at real lines.
-/

namespace Guidebook

/-- A text that holds anything but white space is not blank. -/
theorem Text.not_blank_of_mem {t : Text} {c : Char} (hc : c ∈ t) (hspace : isSpace c = false) :
    isBlank t = false := by
  rw [Bool.eq_false_iff]
  intro hblank
  exact absurd ((isBlank_iff.1 hblank c hc).symm.trans hspace) (by decide)

namespace Guide

/-! ### Which line is named -/

/-- Which line of an item an error names. The item stands in the given part; `front` are its lines
above the one that is named. -/
inductive NamedAt : Part → List Text → Text → Fault → Prop
  | directive {line : Text} {e : DirectiveError} (h : "@file:".toList <+: Text.trim line)
      (hparse : Directive.parse (Text.trim line) = .error e) :
      NamedAt .preamble [] line (.directive (Text.trim line) e)
  | beforeMain {line : Text} (h : Text.isBlank line = false) :
      NamedAt .preamble [] line (.beforeMain (Text.trim line))
  | outsideBlock {line : Text} (h : Text.isBlank line = false) :
      NamedAt .body [] line (.outsideBlock (Text.trim line))
  | afterMain {line : Text} (h : Text.isBlank line = false) : NamedAt .trailer [] line .afterMain
  | comment {part : Part} {line : Text} (h : "/*".toList <+: Text.trim line) :
      NamedAt part [] line .commentOpen
  | notALiteral {line argument : Text} {kind : MediaKind} (h : Marks line kind.marker argument)
      (hparse : Literal.parse argument = .error .notALiteral) :
      NamedAt .body [] line (.notALiteral argument)
  | escape {line argument : Text} {kind : MediaKind} {e : EscapeError}
      (h : Marks line kind.marker argument)
      (hparse : Literal.parse argument = .error (.escape e)) : NamedAt .body [] line (.escape e)
  | unknownMarker {line name argument : Text} (h : Marks line name argument)
      (hname : CodeKind.ofMarker? name = none) : NamedAt .body [] line (.unknownMarker name)
  | textMarker {line argument : Text} (h : Marks line "Text".toList argument) :
      NamedAt .body [] line .textMissing
  | codeMarker {line : Text} {kind : CodeKind} (h : Marks line kind.marker []) :
      NamedAt .body [] line (.codeMissing kind)
  | textOpening {front : List Text} {line first opening : Text} {inline : Bool}
      (h : Lead "Text".toList (front ++ [line]) inline first)
      (hopening : Text.trim first = textQuotes ++ opening) (hopen : ¬ textQuotes <:+: opening) :
      NamedAt .body front line .textOpen
  | codeOpening {front : List Text} {line first : Text} {kind : CodeKind} {inline : Bool}
      (h : Lead kind.marker (front ++ [line]) inline first) :
      NamedAt .body front line (.unbalanced kind)
  | shortText {front : List Text} {line first opening inside trailer : Text} {inline : Bool}
      (h : Lead "Text".toList (front ++ [line]) inline first)
      (hopening : Text.trim first = textQuotes ++ opening)
      (hclose : Text.FirstAt textQuotes opening inside trailer) :
      NamedAt .body front line (.textTrailer (Text.trim trailer))
  | longText {lead inner : List Text} {line first opening inside trailer : Text} {inline : Bool}
      (h : Lead "Text".toList lead inline first)
      (hopening : Text.trim first = textQuotes ++ opening) (hopen : ¬ textQuotes <:+: opening)
      (hinner : ∀ l ∈ inner, ¬ textQuotes <:+: l)
      (hclose : Text.FirstAt textQuotes line inside trailer) :
      NamedAt .body (lead ++ inner) line (.textTrailer (Text.trim trailer))

/-- A marked line is not blank. -/
theorem Marks.not_blank {line name argument : Text} (h : Marks line name argument) :
    Text.isBlank line = false := by
  obtain ⟨tail, htrim, -⟩ := h
  have hmem : '@' ∈ Text.trim line := htrim ▸ List.mem_cons_self
  exact Text.not_blank_of_mem (Text.mem_of_mem_trim hmem) (by decide)

/-- The line on which a block begins is not blank. -/
theorem Lead.exists_concat {name first : Text} {lead : List Text} {inline : Bool}
    (h : Lead name lead inline first) :
    ∃ front line, lead = front ++ [line] ∧ Text.isBlank line = false := by
  cases h with
  | @inline line _ hmarks _ => exact ⟨[], line, rfl, hmarks.not_blank⟩
  | @below line _ blanks _ _ hfirst => exact ⟨line :: blanks, first, rfl, hfirst⟩

/-- The last line of a lead is not blank. -/
theorem Lead.not_blank {name first line : Text} {front : List Text} {inline : Bool}
    (h : Lead name (front ++ [line]) inline first) : Text.isBlank line = false := by
  obtain ⟨front', line', heq, hline'⟩ := h.exists_concat
  obtain ⟨-, hline⟩ := List.append_inj' heq rfl
  rwa [List.singleton_inj.1 hline]

/-- **No error names a blank line.** -/
theorem NamedAt.not_blank {part : Part} {front : List Text} {line : Text} {fault : Fault}
    (h : NamedAt part front line fault) : Text.isBlank line = false := by
  cases h with
  | directive h _ =>
      exact Text.not_blank_of_mem (Text.mem_of_mem_trim (h.mem (List.mem_cons_self (a := '@'))))
        (by decide)
  | comment h =>
      exact Text.not_blank_of_mem (Text.mem_of_mem_trim (h.mem (List.mem_cons_self (a := '/'))))
        (by decide)
  | beforeMain h | outsideBlock h | afterMain h => exact h
  | notALiteral h _ | escape h _ | unknownMarker h _ | textMarker h | codeMarker h =>
      exact h.not_blank
  | textOpening h _ _ | codeOpening h | shortText h _ _ => exact h.not_blank
  | longText _ _ _ _ hclose =>
      have hquote : '"' ∈ textQuotes := by decide
      exact Text.not_blank_of_mem (hclose.isInfix.mem hquote) (by decide)

/-- The error names a line of an item, which stands behind so many lines in the given part. -/
def NamesLine (before : Nat) (part : Part) (item : List Text) (e : Error) : Prop :=
  ∃ front line after, item = front ++ line :: after ∧ e.line = before + front.length + 1 ∧
    NamedAt part front line e.fault

namespace NamesLine

variable {before : Nat} {part : Part} {item front : List Text} {line : Text} {e : Error}
  {fault : Fault}

/-- The first line of an item is named. -/
theorem first (h : NamedAt part [] line fault) (more : List Text) :
    NamesLine before part (line :: more) ⟨before + 1, fault⟩ :=
  ⟨[], line, more, rfl, rfl, h⟩

/-- The last of some lines is named, by the number of those above it. -/
theorem last (h : NamedAt part front line fault) :
    NamesLine before part (front ++ [line]) ⟨before + front.length + 1, fault⟩ :=
  ⟨front, line, [], rfl, rfl, h⟩

/-- The last of some lines is named, by their number. -/
theorem last_of_length (h : NamedAt part front line fault) :
    NamesLine before part (front ++ [line]) ⟨before + (front ++ [line]).length, fault⟩ := by
  rw [List.length_append]
  exact last h

/-- It does not matter how the item goes on. -/
theorem append (h : NamesLine before part item e) (more : List Text) :
    NamesLine before part (item ++ more) e := by
  obtain ⟨front, line, after, rfl, hline, hnamed⟩ := h
  exact ⟨front, line, after ++ more, by simp, hline, hnamed⟩

end NamesLine

namespace Reader

/-! ### One line -/

section Step

variable {before : Nat} {part : Part} {guide : Guide} {line : Text} {e : Error}

/-- Opening quotes are rejected if the closing quotes stand on the same line, and something behind
them. -/
theorem namesLine_of_openText {front : List Text} {inline : Bool} {first opening : Text}
    {pending : Pending} (hlead : Lead "Text".toList (front ++ [line]) inline first)
    (hopening : Text.trim first = textQuotes ++ opening)
    (h : openText ⟨before + front.length, .body, pending, guide⟩ (Text.trim first) = .error e) :
    NamesLine before .body (front ++ [line]) e := by
  rw [hopening] at h
  cases hcut : Text.cut textQuotes opening with
  | none => simp [openText_long (Text.cut_eq_none_iff.1 hcut)] at h
  | some pieces =>
      have hclose := (Text.cut_eq_some_iff textQuotes_ne_nil).1 hcut
      rw [openText_short hclose] at h
      obtain rfl := eq_of_map_checkTrailer h
      exact .last (.shortText hlead hopening hclose)

/-- Braces that do not match are reported where the code begins. -/
theorem namesLine_of_codeLine {r : Reader} {kind : CodeKind} {lead : List Text} {inline : Bool}
    {first : Text} {braces : Braces} {block : List Text}
    (hlead : Lead kind.marker lead inline first)
    (h : r.codeLine kind (before + lead.length) inline braces block line = .error e)
    (more : List Text) : NamesLine before .body (lead ++ more) e := by
  simp only [codeLine] at h
  split at h
  · cases h
  · split at h
    · obtain rfl := eq_of_fail h
      obtain ⟨front, opening, rfl, -⟩ := hlead.exists_concat
      exact (NamesLine.last_of_length (.codeOpening hlead)).append more
    · cases h

/-- An image or video that is rejected is on the line that is named. -/
theorem namesLine_of_mediaLine {argument : Text} {kind : MediaKind}
    (hmarks : Marks line kind.marker argument)
    (h : mediaLine ⟨before, .body, .item, guide⟩ kind argument = .error e) :
    NamesLine before .body [line] e := by
  simp only [mediaLine] at h
  split at h
  · cases h
  · next hparse =>
    obtain rfl := eq_of_fail h
    exact .first (.notALiteral hmarks hparse) []
  · next hparse =>
    obtain rfl := eq_of_fail h
    exact .first (.escape hmarks hparse) []

/-- A marked line, in the body. -/
theorem namesLine_of_marks {name argument : Text} (hmarks : Marks line name argument)
    (h : step ⟨before, .body, .item, guide⟩ line = .error e) :
    NamesLine before .body [line] e := by
  rw [step_marked before guide hmarks] at h
  split at h
  · next hname =>
    subst hname
    split at h
    · cases h
    · next hinline =>
      cases hquotes : textQuotes.isPrefixOf? argument with
      | none =>
          simp only [openText, hquotes] at h
          obtain rfl := eq_of_fail h
          exact .first (.textMarker hmarks) []
      | some opening =>
          have hlead : Lead "Text".toList ([] ++ [line]) true argument := .inline hmarks hinline
          have hopening := (List.isPrefixOf?_eq_some_iff_append_eq.1 hquotes).symm
          obtain ⟨tail, -, -, -, rfl⟩ := hmarks
          rw [← Text.trim_trim] at h hopening
          exact namesLine_of_openText hlead hopening h
  · split at h
    · next himage =>
      subst himage
      exact namesLine_of_mediaLine hmarks h
    · split at h
      · next hvideo =>
        subst hvideo
        exact namesLine_of_mediaLine hmarks h
      · split at h
        · next hname =>
          obtain rfl := eq_of_fail h
          exact .first (.unknownMarker hmarks hname) []
        · next kind hkind =>
          rw [ofMarker?_eq_some_iff] at hkind
          subst hkind
          split at h
          · cases h
          · next hinline => exact namesLine_of_codeLine (.inline hmarks hinline) h []

/-- A trimmed line of the preamble. -/
theorem namesLine_of_preambleLine (hline : Text.isBlank line = false)
    (h : preambleLine ⟨before, .preamble, .item, guide⟩ (Text.trim line) = .error e) :
    NamesLine before .preamble [line] e := by
  simp only [preambleLine] at h
  split at h
  · next hfile =>
    rw [directiveAt] at h
    cases hparse : Directive.parse (Text.trim line) with
    | ok d =>
        rw [hparse] at h
        cases h
    | error cause =>
        rw [hparse, Text.trim_trim] at h
        obtain rfl := (Except.error.inj h).symm
        exact .first (.directive (List.isPrefixOf_iff_prefix.1 hfile) hparse) []
  · split_ifs at h
    obtain rfl := eq_of_fail h
    exact .first (.beforeMain hline) []

/-- A line between items, or the first of an item. -/
theorem namesLine_of_itemLine (h : step ⟨before, part, .item, guide⟩ line = .error e) :
    NamesLine before part [line] e := by
  have hitem : itemLine ⟨before, part, .item, guide⟩ (Text.trim line) = .error e := h
  unfold itemLine at hitem
  split at hitem
  · cases hitem
  · cases hitem
  · split at hitem <;> cases hitem
  · next hnil _ _ =>
    have hline : Text.isBlank line = false := by
      rw [Bool.eq_false_iff]
      exact fun hblank => hnil (Text.trim_eq_nil_iff.2 hblank)
    cases part with
    | preamble => exact namesLine_of_preambleLine hline hitem
    | body =>
        simp only [bodyLine] at hitem
        split at hitem
        · cases hitem
        · split at hitem
          · next marker hmarker => exact namesLine_of_marks (marks_of_trim hmarker) h
          · obtain rfl := eq_of_fail hitem
            exact .first (.outsideBlock hline) []
    | trailer =>
        obtain rfl := eq_of_fail hitem
        exact .first (.afterMain hline) []

/-- **A line that is rejected.** The error names a line of the item that the reader is in the middle
of, or this line. -/
theorem namesLine_of_step {rest : List Text} {pending : Pending}
    (hpartial : Partial before part rest pending)
    (h : step ⟨before + rest.length, part, pending, guide⟩ line = .error e) :
    NamesLine before part (rest ++ [line]) e := by
  cases hpartial with
  | item => exact namesLine_of_itemLine h
  | comment _ _ _ =>
      simp only [step] at h
      split at h <;> cases h
  | @textMarker marker blanks hmarks hblanks =>
      simp only [step] at h
      split at h
      · cases h
      · next hblank =>
        split at h
        · next hquotes =>
          obtain ⟨opening, hopening⟩ := List.isPrefixOf_iff_prefix.1 hquotes
          have hlead : Lead "Text".toList (marker :: blanks ++ [line]) false line :=
            .below hmarks hblanks (Bool.not_eq_true _ ▸ hblank)
          exact namesLine_of_openText hlead hopening.symm h
        · obtain rfl := eq_of_fail h
          exact .first (.textMarker hmarks) _
  | text hlead hopening hopen hinner =>
      simp only [step, textLine] at h
      split at h
      · cases h
      · next inside trailer hcut =>
        have hclose := (Text.cut_eq_some_iff textQuotes_ne_nil).1 hcut
        obtain rfl := eq_of_map_checkTrailer h
        exact .last (.longText hlead hopening hopen hinner hclose)
  | @codeMarker marker kind blanks hmarks hblanks =>
      simp only [step] at h
      split at h
      · cases h
      · next hblank =>
        split at h
        · obtain rfl := eq_of_fail h
          exact .first (.codeMarker hmarks) _
        · have hlead : Lead kind.marker (marker :: blanks ++ [line]) false line :=
            .below hmarks hblanks (Bool.not_eq_true _ ▸ hblank)
          have hline : before + (marker :: blanks).length + 1 =
              before + (marker :: blanks ++ [line]).length := by
            rw [List.length_append, List.length_singleton, Nat.add_assoc]
          rw [hline] at h
          have hnamed := namesLine_of_codeLine hlead h []
          rwa [List.append_nil] at hnamed
  | code hlead _ _ =>
      rw [List.append_assoc]
      exact namesLine_of_codeLine hlead h _

/-- **An item that does not end.** -/
theorem namesLine_of_finish {n : Nat} {rest : List Text} {pending : Pending}
    (hpartial : Partial before part rest pending) (hpending : pending ≠ .item)
    (h : finish ⟨n, part, pending, guide⟩ = .error e) : NamesLine before part rest e := by
  cases hpartial with
  | item => exact absurd rfl hpending
  | comment htrim _ _ =>
      obtain rfl := (Except.error.inj h).symm
      exact .first (.comment ⟨_, htrim.symm⟩) _
  | textMarker hmarks _ =>
      obtain rfl := (Except.error.inj h).symm
      exact .first (.textMarker hmarks) _
  | text hlead hopening hopen _ =>
      obtain rfl := (Except.error.inj h).symm
      obtain ⟨front, opening, rfl, -⟩ := hlead.exists_concat
      exact (NamesLine.last_of_length (.textOpening hlead hopening hopen)).append _
  | codeMarker hmarks _ =>
      obtain rfl := (Except.error.inj h).symm
      exact .first (.codeMarker hmarks) _
  | code hlead _ _ =>
      obtain rfl := (Except.error.inj h).symm
      obtain ⟨front, opening, rfl, -⟩ := hlead.exists_concat
      exact (NamesLine.last_of_length (.codeOpening hlead)).append _

end Step

end Reader

/-! ### The item being read -/

/-- The complete items in front of some lines, as many as there can be, take up the lines `done` and
lead to the given part. What stands behind them is the item being read. -/
structure CompleteUpTo (lines done : List Text) (part : Part) : Prop where
  front : done <+: lines
  items : ∃ additions, Items .preamble done additions part
  longest : ∀ {front : List Text} {additions : List Addition} {next : Part}, front <+: lines →
    Items .preamble front additions next → front.length ≤ done.length

/-- Complete items are all the complete items that there are. -/
theorem Items.completeUpTo {lines : List Text} {additions : List Addition} {part : Part}
    (h : Items .preamble lines additions part) : CompleteUpTo lines lines part where
  front := List.prefix_rfl
  items := ⟨additions, h⟩
  longest := fun hfront _ => hfront.length_le

namespace Reader

variable {lines done : List Text} {line : Text} {part : Part} {r : Reader} {e : Error}

/-- Behind some lines of an item, the reader is in the middle of something. -/
theorem Partial.ne_item {before : Nat} {rest : List Text} {pending : Pending}
    (h : Partial before part (rest ++ [line]) pending) : pending ≠ .item := by
  rintro rfl
  generalize hlines : rest ++ [line] = lines at h
  cases h with
  | item => simp at hlines

/-- No item is complete behind a line that leaves the reader in the middle of something. -/
theorem completeUpTo_concat (h : CompleteUpTo lines done part)
    (hrun : start.run (lines ++ [line]) = .ok r) (hpending : r.pending ≠ .item) :
    CompleteUpTo (lines ++ [line]) done part where
  front := h.front.trans (List.prefix_append _ _)
  items := h.items
  longest := by
    intro front additions next hfront hitems
    rcases List.prefix_concat_iff.1 hfront with rfl | hfront
    · obtain rfl := Except.ok.inj (hrun.symm.trans (run_items hitems 0 .empty))
      exact absurd rfl hpending
    · exact h.longest hfront hitems

/-- No item is complete behind a line that is rejected, or below it. -/
theorem completeUpTo_of_rejected {front : List Text} (h : CompleteUpTo front done part)
    (hfront : start.run front = .ok r) (hstep : r.step line = .error e) (below : List Text) :
    CompleteUpTo (front ++ line :: below) done part where
  front := h.front.trans (List.prefix_append _ _)
  items := h.items
  longest := by
    intro other additions next hother hitems
    by_cases hle : other.length ≤ front.length
    · exact h.longest (List.prefix_of_prefix_length_le hother (List.prefix_append _ _) hle) hitems
    · -- items are read to their end, and these hold the line that is rejected
      obtain ⟨more, rfl⟩ : front ++ [line] <+: other :=
        List.prefix_of_prefix_length_le ⟨below, by simp⟩ hother (by simp; omega)
      have hrun := run_items hitems 0 .empty
      rw [← start, run_append, run_append, hfront, Except.bind, run_singleton, hstep] at hrun
      cases hrun

/-- **What the reader has behind it**: as many complete items as there can be, and the beginning of
one more. -/
theorem run_reached_up_to (h : start.run lines = .ok r) :
    ∃ done rest, lines = done ++ rest ∧ CompleteUpTo lines done r.part ∧
      Partial done.length r.part rest r.pending ∧ r.line = lines.length := by
  induction lines using List.reverseRecOn generalizing r with
  | nil =>
      obtain rfl := Except.ok.inj h
      exact ⟨[], [], rfl, Items.completeUpTo (.nil .preamble), .item, rfl⟩
  | append_singleton lines line ih =>
      cases hlines : start.run lines with
      | error e => simp [run_append, hlines, Except.bind] at h
      | ok s =>
          obtain ⟨done, rest, rfl, hcomplete, hpartial, hline⟩ := ih hlines
          obtain ⟨sline, spart, spending, sguide⟩ := s
          simp only at hcomplete hpartial hline
          subst hline
          have hstep : step ⟨done.length + rest.length, spart, spending, sguide⟩ line = .ok r := by
            rwa [run_append, hlines, Except.bind, run_singleton, List.length_append] at h
          rcases step_partial hpartial hstep with
            ⟨addition, next, hitem, rfl⟩ | ⟨pending, hnext, rfl⟩
          · -- with this line everything so far is complete
            obtain ⟨additions, hitems⟩ := hcomplete.items
            have hall := hitems.append (.of_item hitem)
            rw [← List.append_assoc] at hall
            exact ⟨done ++ rest ++ [line], [], by simp, hall.completeUpTo, .item, by simp⟩
          · exact ⟨done, rest ++ [line], by simp,
              completeUpTo_concat hcomplete h (Partial.ne_item hnext), hnext, by simp⟩

end Reader

/-! ### Errors of sources -/

/-- All items are complete, but `fun main` or its end is missing, and the error names the last
line. -/
def LacksEnd (lines : List Text) (e : Error) : Prop :=
  e.line = max 1 lines.length ∧ ∃ additions,
    (e.fault = .mainMissing ∧ Items .preamble lines additions .preamble ∨
      e.fault = .mainOpen ∧ Items .preamble lines additions .body)

/-- **The line that is named.** Unless `fun main` or its end is missing, it belongs to the first
item that cannot be read. -/
theorem names_of_ofLines_eq_error {lines : List Text} {e : Error} (h : ofLines lines = .error e) :
    LacksEnd lines e ∨ ∃ done item part, lines = done ++ item ∧ CompleteUpTo lines done part ∧
      NamesLine done.length part item e := by
  cases hrun : Reader.start.run lines with
  | error cause =>
      obtain rfl : cause = e := by
        rw [ofLines, hrun] at h
        exact Except.error.inj h
      obtain ⟨front, line, below, r, rfl, hfront, hstep⟩ := Reader.exists_failed_line hrun
      obtain ⟨done, rest, rfl, hcomplete, hpartial, hline⟩ := Reader.run_reached_up_to hfront
      refine .inr ⟨done, rest ++ line :: below, r.part, by simp,
        Reader.completeUpTo_of_rejected hcomplete hfront hstep below, ?_⟩
      obtain ⟨rline, rpart, rpending, rguide⟩ := r
      simp only at hpartial hline
      rw [hline, List.length_append] at hstep
      have hnamed := (Reader.namesLine_of_step hpartial hstep).append below
      rwa [List.append_assoc, List.singleton_append] at hnamed
  | ok r =>
      have hfinish : r.finish = .error e := by
        rw [ofLines, hrun] at h
        exact h
      obtain ⟨done, rest, rfl, hcomplete, hpartial, hline⟩ := Reader.run_reached_up_to hrun
      obtain ⟨rline, rpart, rpending, rguide⟩ := r
      simp only at hcomplete hpartial hline
      by_cases hpending : rpending = .item
      · subst hpending hline
        cases hpartial with
        | item =>
            obtain ⟨additions, hitems⟩ := hcomplete.items
            rw [List.append_nil] at hfinish ⊢
            left
            cases rpart with
            | preamble =>
                obtain rfl := (Except.error.inj hfinish).symm
                exact ⟨rfl, additions, .inl ⟨rfl, hitems⟩⟩
            | body =>
                obtain rfl := (Except.error.inj hfinish).symm
                exact ⟨rfl, additions, .inr ⟨rfl, hitems⟩⟩
            | trailer => cases hfinish
      · exact .inr ⟨done, rest, rpart, rfl, hcomplete,
          Reader.namesLine_of_finish hpartial hpending hfinish⟩

/-- **Rejections point at real lines.** The line at which a source is rejected lies between the
first and the last. If `fun main` or its end is missing, it is the last. Otherwise take the
complete items in front of the source, as many as there can be. The line belongs to the item
behind them, and is not blank; it is the first line of this item, or the one on which its text or
code begins, or the one with the closing quotes of its text. -/
theorem line_of_rejection {content package : Text} {link : Option PublicLink}
    {rejection : Rejection} (h : publish content package link = .error rejection) :
    1 ≤ rejection.line ∧ rejection.line ≤ max 1 (Text.lines content).length ∧
    ∃ e : Error, read content = .error e ∧ rejection = e.toRejection ∧
      (LacksEnd (sourceLines content) e ∨
        ∃ done front line below part, sourceLines content = done ++ (front ++ line :: below) ∧
          CompleteUpTo (sourceLines content) done part ∧
          rejection.line = done.length + front.length + 1 ∧ Text.isBlank line = false ∧
          NamedAt part front line e.fault) := by
  have hlength : (Text.lines content).length = (sourceLines content).length :=
    (List.length_map _).symm
  cases hread : read content with
  | ok guide => simp [publish, hread] at h
  | error e =>
      obtain rfl : e.toRejection = rejection := by
        rw [publish, hread] at h
        exact Except.error.inj h
      rw [hlength]
      rcases names_of_ofLines_eq_error hread with
        hend | ⟨done, item, part, hlines, hcomplete, hnamed⟩
      · have hline : e.toRejection.line = max 1 (sourceLines content).length := hend.1
        exact ⟨by omega, by omega, e, rfl, rfl, .inl hend⟩
      · obtain ⟨front, line, below, rfl, hline, hnamed⟩ := hnamed
        have hnumber : e.toRejection.line = done.length + front.length + 1 := hline
        have hcount : (sourceLines content).length =
            done.length + (front.length + (below.length + 1)) := by
          rw [hlines, List.length_append, List.length_append, List.length_cons]
        exact ⟨by omega, by omega, e, rfl, rfl, .inr ⟨done, front, line, below, part, hlines,
          hcomplete, hnumber, hnamed.not_blank, hnamed⟩⟩

/-- A guide whose only text does not end. -/
def textWithoutEnd : Text :=
  "fun main() \x7b\n@Text\n\n\"\"\"prose\nmore\n".toList

/-- It is rejected at its fourth line, on which the text begins: behind one line that is complete,
and below the marker and a blank line. -/
theorem line_of_rejection_of_textWithoutEnd :
    publish textWithoutEnd "p".toList none = .error ⟨4, Fault.message .textOpen⟩ ∧
    ∃ done front line below part fault,
      sourceLines textWithoutEnd = done ++ (front ++ line :: below) ∧
      CompleteUpTo (sourceLines textWithoutEnd) done part ∧ done.length + front.length = 3 ∧
      Text.isBlank line = false ∧ NamedAt part front line fault := by
  have hrejected : publish textWithoutEnd "p".toList none =
      .error ⟨4, Fault.message .textOpen⟩ := by
    decide +kernel
  refine ⟨hrejected, ?_⟩
  obtain ⟨-, -, e, -, heq, ⟨hline, -⟩ | ⟨done, front, line, below, part, hlines, hcomplete, hline,
    hblank, hnamed⟩⟩ := line_of_rejection hrejected
  · have hcount : (sourceLines textWithoutEnd).length = 5 := by decide +kernel
    have hnumber : 4 = e.line := congrArg Rejection.line heq
    omega
  · have hnumber : 4 = done.length + front.length + 1 := hline
    exact ⟨done, front, line, below, part, e.fault, hlines, hcomplete, by omega, hblank, hnamed⟩

end Guide

end Guidebook
