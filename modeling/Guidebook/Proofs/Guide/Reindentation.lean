import Guidebook.Guide.Publication
import Guidebook.Proofs.Guide.SourceLines

/-!
# Guides Behind a Margin

White space in front of every line of a guide changes nothing. Between blocks the reader looks at
trimmed lines only. Within a block it keeps the lines as they stand, so that a reader of the
indented lines has kept them with the white space in front, and this is what dedenting takes away.

The line that opens a block is trimmed, whatever stands in front of it. Code that begins behind its
marker is dedented without its first line; prose that begins behind its opening quotes is dedented
as a whole, so the white space would show against it. Therefore a text that goes on below its
opening quotes may only have blanks behind them (`Guide.HasBareTexts`).

## Main results

* `Guide.Reader.step_indented`, `Guide.Reader.run_indented`: **both readers in step**.
* `Guide.hasBareTexts_iff`: the condition, in terms of what the reader is in the middle of.
* `Guide.publish_indentLines`: **a margin leaves no trace**.
-/

namespace Guidebook.Guide

/-- Wherever a text goes on below its opening quotes, there are only blanks behind these. -/
def HasBareTexts (lines : List Text) : Prop :=
  ∀ ⦃front lead rest : List Text⦄ ⦃additions : List Addition⦄ ⦃inline : Bool⦄
    ⦃first opening : Text⦄, lines = front ++ lead ++ rest →
    Items .preamble front additions .body → Lead "Text".toList lead inline first →
    Text.trim first = textQuotes ++ opening → ¬ textQuotes <:+: opening →
    Text.isBlank opening = true

/-! ### The lines kept -/

/-- The lines kept of a block, with `w` in front of each that has not been trimmed. -/
def indentKept (w : Text) (inline : Bool) : List Text → List Text
  | [] => []
  | first :: more => (if inline then first else w ++ first) :: more.map (w ++ ·)

/-- What the reader is in the middle of, with `w` in front of all lines. -/
def Pending.indented (w : Text) : Pending → Pending
  | .text opened block => .text opened (indentKept w true block)
  | .code kind opened inline braces block =>
    .code kind opened inline braces (indentKept w inline block)
  | pending => pending

/-- The first of the lines kept is there if it has been trimmed, and if it is one of prose it is
blank. -/
def Pending.isIndentable : Pending → Bool
  | .text _ block => block.head?.any Text.isBlank
  | .code _ _ inline _ block => !inline || !block.isEmpty
  | _ => true

section Kept

variable {w : Text} {inline : Bool} {block : List Text}

/-- A line that is kept behind others is kept with `w` in front. -/
theorem indentKept_concat (h : inline = true → block ≠ []) (line : Text) :
    indentKept w inline (block ++ [line]) = indentKept w inline block ++ [w ++ line] := by
  cases block with
  | nil =>
      have hbelow : inline = false := by simpa using h
      rw [hbelow]
      rfl
  | cons first more => simp [indentKept]

/-- Of code below its marker every line is kept with `w` in front. -/
theorem indentKept_false (block : List Text) : indentKept w false block = block.map (w ++ ·) := by
  cases block <;> rfl

/-- Code is the same behind white space. -/
theorem codeOf_indentKept (hw : Text.isBlank w = true) (inline : Bool) (block : List Text) :
    Reader.codeOf inline (indentKept w inline block) = Reader.codeOf inline block := by
  have hdedent := Text.dedent_map hw (Text.indents_append hw)
  cases inline with
  | false => rw [indentKept_false, Reader.codeOf, Reader.codeOf, hdedent] <;> simp
  | true =>
      cases block with
      | nil => rfl
      | cons first more => simp only [indentKept, if_true, Reader.codeOf, hdedent]

/-- Prose that begins below its opening quotes is the same behind white space. -/
theorem dedent_indentKept (hw : Text.isBlank w = true) {opening : Text}
    (h : Text.isBlank opening = true) (more : List Text) :
    Text.dedent (indentKept w true (opening :: more)) = Text.dedent (opening :: more) := by
  rw [indentKept, if_pos rfl, Text.dedent_cons_blank h, Text.dedent_cons_blank h,
    Text.dedent_map hw (Text.indents_append hw)]

end Kept

namespace Reader

/-- The reader of the lines with `w` in front. -/
def indented (w : Text) (r : Reader) : Reader :=
  { r with pending := r.pending.indented w }

section Step

variable {w : Text} {r : Reader}

/-! ### Lines that open something

They are trimmed, and so are the lines that are kept of them. -/

/-- A block that is closed leaves nothing to put `w` in front of. -/
theorem map_checkTrailer_indented (line : Nat) (trailer : Text) (r : Reader) (block : Block) :
    ((checkTrailer line trailer).map fun _ => r.close block).map (indented w) =
      (checkTrailer line trailer).map fun _ => r.close block := by
  cases checkTrailer line trailer <;> rfl

/-- The opening quotes of a text are trimmed, and what is kept behind them is too. -/
theorem openText_indented (r : Reader) (opening : Text) :
    (r.openText opening).map (indented w) = r.openText opening := by
  simp only [openText]
  cases textQuotes.isPrefixOf? opening with
  | none => rfl
  | some first =>
      cases hcut : Text.cut textQuotes first with
      | none =>
          simp only [hcut]
          rfl
      | some pieces =>
          simp only [hcut]
          exact map_checkTrailer_indented (r.line + 1) pieces.2 r _

/-- The first line of a code that stands behind its marker is trimmed, and kept as it is. -/
theorem codeLine_first_indented (r : Reader) (kind : CodeKind) (opened : Nat) (braces : Braces)
    (line : Text) :
    (r.codeLine kind opened true braces [] line).map (indented w) =
      r.codeLine kind opened true braces [] line := by
  simp only [codeLine]
  split
  · rfl
  · split <;> rfl

/-- An image or video leaves nothing to put `w` in front of. -/
theorem mediaLine_indented (r : Reader) (kind : MediaKind) (argument : Text) :
    (r.mediaLine kind argument).map (indented w) = r.mediaLine kind argument := by
  simp only [mediaLine]
  split <;> rfl

/-- What is kept of the line of any marker has been trimmed. -/
theorem markerLine_indented (r : Reader) (marker : Text) :
    (r.markerLine marker).map (indented w) = r.markerLine marker := by
  simp only [markerLine]
  split
  · split
    · rfl
    · exact openText_indented r _
  · split
    · exact mediaLine_indented r _ _
    · split
      · exact mediaLine_indented r _ _
      · split
        · rfl
        · split
          · rfl
          · exact codeLine_first_indented r _ _ _ _

/-- Nothing is kept of a line of the preamble but what it adds. -/
theorem preambleLine_indented (h : r.pending = .item) (line : Text) :
    (r.preambleLine line).map (indented w) = r.preambleLine line := by
  obtain ⟨n, part, pending, guide⟩ := r
  subst h
  simp only [preambleLine, directiveAt]
  cases Directive.parse line with
  | ok d => split_ifs <;> rfl
  | error e => split_ifs <;> rfl

/-- Between blocks both readers are the same. -/
theorem itemLine_indented (h : r.pending = .item) (line : Text) :
    (r.itemLine line).map (indented w) = r.itemLine line := by
  obtain ⟨n, part, pending, guide⟩ := r
  subst h
  unfold itemLine
  split
  · rfl
  · rfl
  · split <;> rfl
  · cases part with
    | preamble => exact preambleLine_indented rfl _
    | body =>
        simp only [bodyLine]
        split
        · rfl
        · split
          · exact markerLine_indented _ _
          · rfl
    | trailer => rfl

/-! ### Lines within something -/

/-- A line of a text can be read with `w` in front of it and of those above it, if the first of them
is blank. -/
theorem textLine_indented (hw : Text.isBlank w = true) (opened : Nat) {block : List Text}
    (h : block.head?.any Text.isBlank = true) (line : Text) :
    (r.indented w).textLine opened (indentKept w true block) (w ++ line) =
      (r.textLine opened block line).map (indented w) := by
  cases block with
  | nil => cases h
  | cons opening more =>
      have hkept : ∀ last, indentKept w true (opening :: more) ++ [w ++ last] =
          indentKept w true (opening :: more ++ [last]) := fun last =>
        (indentKept_concat (fun _ => List.cons_ne_nil opening more) last).symm
      simp only [textLine, Text.cut_append_blank textQuotes_ne_nil (by decide) hw]
      cases Text.cut textQuotes line with
      | none =>
          simp only [Option.map_none, hkept]
          rfl
      | some pieces =>
          simp only [Option.map_some, hkept, List.cons_append, dedent_indentKept hw h]
          exact (map_checkTrailer_indented (r.line + 1) pieces.2 r _).symm

/-- A line of code can be read with `w` in front of it and of those above it, as long as a first
line that has been trimmed is there. -/
theorem codeLine_indented (hw : Text.isBlank w = true) (r : Reader) (kind : CodeKind) (opened : Nat)
    {inline : Bool} (braces : Braces) {block : List Text} (h : inline = true → block ≠ [])
    (line : Text) :
    (r.indented w).codeLine kind opened inline braces (indentKept w inline block) (w ++ line) =
      (r.codeLine kind opened inline braces block line).map (indented w) := by
  simp only [codeLine, Braces.addLine_append hw, ← indentKept_concat h, codeOf_indentKept hw]
  split
  · rfl
  · split <;> rfl

/-- **One line, with and without `w` in front.** -/
theorem step_indented (hw : Text.isBlank w = true) (h : r.pending.isIndentable = true)
    (line : Text) : (r.indented w).step (w ++ line) = (r.step line).map (indented w) := by
  obtain ⟨n, part, pending, guide⟩ := r
  have htrim := Text.trim_append_left hw line
  have hblank := (Text.indents_append hw).blank line
  cases pending with
  | item =>
      simp only [step, indented, Pending.indented, htrim]
      exact (itemLine_indented rfl _).symm
  | comment opened =>
      simp only [step, indented, Pending.indented,
        Text.has_append_blank (by decide : "*/".toList ≠ []) (by decide) hw]
      split <;> rfl
  | textMarker marker =>
      simp only [step, indented, Pending.indented, htrim, hblank]
      split
      · rfl
      · split
        · exact (openText_indented _ _).symm
        · rfl
  | text opened block => exact textLine_indented hw opened h line
  | codeMarker kind marker =>
      simp only [step, indented, Pending.indented, htrim, hblank]
      split
      · rfl
      · split
        · rfl
        · have hnone : false = true → ([] : List Text) ≠ [] := fun h => absurd h Bool.false_ne_true
          exact codeLine_indented hw ⟨n, part, .codeMarker kind marker, guide⟩ kind (n + 1) .start
            hnone line
  | code kind opened inline braces block =>
      refine codeLine_indented hw ⟨n, part, _, guide⟩ kind opened braces ?_ line
      rintro rfl rfl
      cases h

end Step

/-! ### Both readers to the end -/

/-- **Any lines, with and without `w` in front.** -/
theorem run_indented {w : Text} (hw : Text.isBlank w = true) {r : Reader} {lines : List Text}
    (h : ∀ front, front <+: lines → ∀ s, r.run front = .ok s → s.pending.isIndentable = true) :
    (r.indented w).run (lines.map (w ++ ·)) = (r.run lines).map (indented w) := by
  induction lines generalizing r with
  | nil => rfl
  | cons line lines ih =>
      have hfirst := step_indented hw (h [] List.nil_prefix r rfl) line
      rw [List.map_cons, run_cons, run_cons, hfirst]
      cases hstep : r.step line with
      | error e => rfl
      | ok next =>
          refine ih fun front hfront s hs => h (line :: front) ?_ s ?_
          · exact List.cons_prefix_cons.2 ⟨rfl, hfront⟩
          · rw [run_cons, hstep]
            exact hs

/-- What is reported where the source ends does not depend on the lines kept. -/
theorem finish_indented (w : Text) (r : Reader) : (r.indented w).finish = r.finish := by
  obtain ⟨n, part, pending, guide⟩ := r
  cases pending <;> cases part <;> rfl

/-- If the texts are bare, the first of the lines kept is always one that white space in front does
not change. -/
theorem isIndentable_of_hasBareTexts {front rest : List Text} {r : Reader}
    (h : HasBareTexts (front ++ rest)) (hrun : start.run front = .ok r) :
    r.pending.isIndentable = true := by
  obtain ⟨done, begun, additions, rfl, hdone, hpartial, -, -⟩ :=
    run_reached (reached_nil 0 .preamble .empty) hrun
  obtain ⟨n, part, pending, guide⟩ := r
  cases hpartial with
  | @text lead inner _ _ _ hlead hopening hopen _ =>
      have hlines : done ++ (lead ++ inner) ++ rest = done ++ lead ++ (inner ++ rest) := by simp
      exact h hlines hdone hlead hopening hopen
  | code => simp [Pending.isIndentable]
  | _ => rfl

end Reader

/-- What the condition says of the reader. -/
theorem hasBareTexts_iff {lines : List Text} :
    HasBareTexts lines ↔ ∀ front ∈ lines.inits, ∀ r ∈ (Reader.start.run front).toOption,
      r.pending.isIndentable = true := by
  constructor
  · intro h front hfront r hr
    obtain ⟨rest, rfl⟩ := (List.mem_inits _ _).1 hfront
    cases hrun : Reader.start.run front with
    | error e => rw [hrun] at hr; cases hr
    | ok s =>
        rw [hrun] at hr
        obtain rfl := Option.some.inj hr
        exact Reader.isIndentable_of_hasBareTexts h hrun
  · intro h front lead rest additions inline first opening hlines hfront hlead hopening hopen
    obtain ⟨k, pending, -, hrun⟩ :=
      Reader.run_text_lead hlead ⟨opening, hopening.symm⟩ (0 + front.length)
        (empty.addAll additions)
    rw [hopening, Reader.openText_long hopen] at hrun
    obtain ⟨r, n, hr, hpending⟩ :
        ∃ r n, Reader.start.run (front ++ lead) = .ok r ∧ r.pending = .text n [opening] := by
      refine ⟨_, _, Eq.trans ?_ hrun, rfl⟩
      rw [Reader.run_append, Reader.start, Reader.run_items hfront]
      rfl
    have hindentable := h (front ++ lead) ((List.mem_inits _ _).2 ⟨rest, hlines.symm⟩) r
      (by rw [hr]; rfl)
    rw [hpending] at hindentable
    exact hindentable

/-- **A margin leaves no trace.** Take a source in which every text that goes on below its opening
quotes has only blanks behind these. With the same white space in front of each of its lines,
whatever this consists of but for line ends, it is published as it was; or it is rejected as it was,
at the same line. -/
theorem publish_indentLines {w content : Text} (hw : Text.isBlank w = true)
    (hfeed : '\n' ∉ w) (hreturn : '\r' ∉ w) (hbare : HasBareTexts (sourceLines content))
    (package : Text) (link : Option PublicLink) :
    publish (Text.indentLines w content) package link = publish content package link := by
  have hline : ∀ c, c = '\n' ∨ c = '\r' → c ∉ w := by
    rintro c (rfl | rfl)
    · exact hfeed
    · exact hreturn
  have hlines : ofLines ((sourceLines content).map (w ++ ·)) = ofLines (sourceLines content) := by
    have hrun : Reader.start.run ((sourceLines content).map (w ++ ·)) =
        (Reader.start.run (sourceLines content)).map (Reader.indented w) := by
      refine Reader.run_indented hw (r := .start) fun front hfront s hs => ?_
      obtain ⟨rest, hrest⟩ := hfront
      exact Reader.isIndentable_of_hasBareTexts (hrest ▸ hbare) hs
    rw [ofLines, ofLines, hrun]
    cases Reader.start.run (sourceLines content) with
    | error e => rfl
    | ok r => exact Reader.finish_indented w r
  rw [publish, publish, read, read, sourceLines_indentLines hline, hlines]

/-- A comment, prose that begins below its opening quotes, and code that begins behind its marker
and holds a raw string. -/
def guideAtMargin : Text :=
  "fun main() \x7b\n/* one\n  two */\n@Text \"\"\"\n  a\n   b\n\"\"\"\n".toList
    ++ "@Code f \x7b\n  \"\"\"x\n y\"\"\"\n\x7d\n\x7d\n".toList

/-- The guide is published the same with a tab and a space in front of its lines. -/
theorem publish_indentLines_of_guideAtMargin :
    HasBareTexts (sourceLines guideAtMargin) ∧
      (publish guideAtMargin "examples".toList none).toOption.map Publication.page =
        some "a\n b\n\n```kotlin\nf \x7b\n  \"\"\"x\n y\"\"\"\n\x7d\n```\n".toList ∧
      publish (Text.indentLines "\t ".toList guideAtMargin) "examples".toList none =
        publish guideAtMargin "examples".toList none := by
  have hbare : HasBareTexts (sourceLines guideAtMargin) := by
    rw [hasBareTexts_iff]
    decide +kernel
  refine ⟨hbare, by decide +kernel, ?_⟩
  exact publish_indentLines (by decide) (by decide) (by decide) hbare "examples".toList none

/-- Prose behind its opening quotes shows how far the lines below it are indented. -/
example :
    publish (Text.indentLines [' '] "fun main() \x7b\n@Text \"\"\" a\n b\"\"\"\n\x7d\n".toList)
        [] none ≠
      publish "fun main() \x7b\n@Text \"\"\" a\n b\"\"\"\n\x7d\n".toList [] none := by
  decide +kernel

end Guidebook.Guide
