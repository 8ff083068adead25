import Guidebook.Proofs.Guide.Grammar

/-!
# Reading Accepts the Grammar

The reader of `Guidebook.Guide.Reader` takes lines one at a time and never looks ahead. Here it is
shown to accept exactly what `Guide.Items` describes, and to make of it the guide that the items add
up to.

One direction runs the reader over an item: from between two items it comes to between two items,
having added what the item adds, whatever stands around it. The other direction follows the reader
line by line: at each moment the lines behind it are a stretch of complete items and the beginning
of one more, and which beginning that is, is told by what the reader is in the middle of.

## Main results

* `Guide.Reader.run_item`, `Guide.Reader.run_items`: reading items.
* `Guide.Reader.step_partial`, `Guide.Reader.run_reached`: what one line, and any lines, do to the
  items read so far.
* `Guide.ofLines_eq_ok_iff`: **reading and grammar agree**, also on the guide that is read.
* `Guide.read_accepts_iff`: which sources are guides.
-/

namespace Guidebook.Guide

namespace Reader

/-! ### Lines between items -/

@[simp] theorem run_nil (r : Reader) : r.run [] = .ok r := rfl

/-- The first line is read first, and the others unless it is rejected. -/
theorem run_cons (r : Reader) (line : Text) (lines : List Text) :
    r.run (line :: lines) = (r.step line).bind fun r => r.run lines :=
  List.foldlM_cons

/-- To read a single line is one step. -/
theorem run_singleton (r : Reader) (line : Text) : r.run [line] = r.step line := by
  rw [run_cons]
  cases r.step line <;> rfl

/-- Lines that leave the reader in the middle of the same thing are read through. -/
theorem run_waiting {part : Part} {pending : Pending} {guide : Guide} {lines : List Text}
    (h : ∀ l ∈ lines, ∀ n, step ⟨n, part, pending, guide⟩ l = .ok ⟨n + 1, part, pending, guide⟩)
    (n : Nat) :
    run ⟨n, part, pending, guide⟩ lines = .ok ⟨n + lines.length, part, pending, guide⟩ := by
  induction lines generalizing n with
  | nil => rfl
  | cons line lines ih =>
      obtain ⟨hline, hlines⟩ := List.forall_mem_cons.1 h
      rw [run_cons, hline, Except.bind, ih hlines, List.length_cons]
      congr 2
      omega

/-- A line that begins neither a comment nor a blank is read by the part it stands in. -/
theorem itemLine_cons {c : Char} (hc : c ≠ '/') (r : Reader) (rest : Text) :
    r.itemLine (c :: rest) =
      match r.part with
      | .preamble => r.preambleLine (c :: rest)
      | .body => r.bodyLine (c :: rest)
      | .trailer => fail (r.line + 1) .afterMain := by
  unfold itemLine
  split
  · next heq => exact absurd heq (List.cons_ne_nil c rest)
  · next heq => exact absurd (List.cons.inj heq).1 hc
  · next heq => exact absurd (List.cons.inj heq).1 hc
  · rfl

/-! ### Markers -/

/-- A marker is as long as there are characters of markers. -/
theorem takeWhile_marker {name tail : Text} (hname : ∀ c ∈ name, isMarkerChar c = true)
    (htail : ∀ c ∈ tail.head?, isMarkerChar c = false) :
    (name ++ tail).takeWhile isMarkerChar = name := by
  rw [List.takeWhile_append_of_pos hname]
  cases tail with
  | nil => simp
  | cons c tail => simp [htail c rfl]

/-- Behind a marker stands what follows these characters. -/
theorem dropWhile_marker {name tail : Text} (hname : ∀ c ∈ name, isMarkerChar c = true)
    (htail : ∀ c ∈ tail.head?, isMarkerChar c = false) :
    (name ++ tail).dropWhile isMarkerChar = tail := by
  rw [List.dropWhile_append_of_pos hname]
  cases tail with
  | nil => rfl
  | cons c tail => simp [htail c rfl]

/-- The kind of a code is that of its marker. -/
theorem ofMarker?_eq_some_iff {name : Text} {kind : CodeKind} :
    CodeKind.ofMarker? name = some kind ↔ name = kind.marker := by
  constructor
  · intro h
    have hfound := List.find?_some h
    exact (of_decide_eq_true hfound).symm
  · rintro rfl
    cases kind <;> decide

section Marked

variable {line argument : Text} (n : Nat) (guide : Guide)

/-- In the body, a marked line is read as its marker says. -/
theorem step_marked {name : Text} (h : Marks line name argument) :
    step ⟨n, .body, .item, guide⟩ line =
      if name = "Text".toList then
        if argument = [] then .ok (await ⟨n, .body, .item, guide⟩ (.textMarker (n + 1)))
        else openText ⟨n, .body, .item, guide⟩ argument
      else if name = MediaKind.image.marker then mediaLine ⟨n, .body, .item, guide⟩ .image argument
      else if name = MediaKind.video.marker then mediaLine ⟨n, .body, .item, guide⟩ .video argument
      else
        match CodeKind.ofMarker? name with
        | none => fail (n + 1) (.unknownMarker name)
        | some kind =>
          if argument = [] then .ok (await ⟨n, .body, .item, guide⟩ (.codeMarker kind (n + 1)))
          else codeLine ⟨n, .body, .item, guide⟩ kind (n + 1) true .start [] argument := by
  obtain ⟨tail, htrim, hname, htail, rfl⟩ := h
  rw [step, htrim, itemLine_cons (by decide), bodyLine, if_neg (by simp)]
  rewrite [markerLine, takeWhile_marker hname htail, dropWhile_marker hname htail]
  rfl

/-- Behind a bare `@Text` the reader waits for the opening quotes. -/
theorem step_text_below (h : Marks line "Text".toList []) :
    step ⟨n, .body, .item, guide⟩ line = .ok ⟨n + 1, .body, .textMarker (n + 1), guide⟩ := by
  rw [step_marked n guide h, if_pos rfl, if_pos rfl]
  rfl

/-- Anything else on the line of `@Text` has to open the text. -/
theorem step_text_inline (h : Marks line "Text".toList argument) (hne : argument ≠ []) :
    step ⟨n, .body, .item, guide⟩ line = openText ⟨n, .body, .item, guide⟩ argument := by
  rw [step_marked n guide h, if_pos rfl, if_neg hne]

/-- The line of an image or video is read at once. -/
theorem step_media {kind : MediaKind} (h : Marks line kind.marker argument) :
    step ⟨n, .body, .item, guide⟩ line = mediaLine ⟨n, .body, .item, guide⟩ kind argument := by
  rw [step_marked n guide h]
  cases kind <;> rfl

/-- Behind a bare marker of code the reader waits for the code. -/
theorem step_code_below {kind : CodeKind} (h : Marks line kind.marker []) :
    step ⟨n, .body, .item, guide⟩ line = .ok ⟨n + 1, .body, .codeMarker kind (n + 1), guide⟩ := by
  rw [step_marked n guide h, ofMarker?_eq_some_iff.2 rfl]
  cases kind <;> rfl

/-- Anything else on the line of such a marker is the first line of the code. -/
theorem step_code_inline {kind : CodeKind} (h : Marks line kind.marker argument)
    (hne : argument ≠ []) :
    step ⟨n, .body, .item, guide⟩ line =
      codeLine ⟨n, .body, .item, guide⟩ kind (n + 1) true .start [] argument := by
  rw [step_marked n guide h, ofMarker?_eq_some_iff.2 rfl]
  cases kind <;> exact if_neg hne

end Marked

/-! ### Reading the lines of an item -/

/-- Blanks and comments leave no trace. -/
theorem run_skip {lines : List Text} (h : IsSkip lines) (n : Nat) (part : Part) (guide : Guide) :
    run ⟨n, part, .item, guide⟩ lines = .ok ⟨n + lines.length, part, .item, guide⟩ := by
  cases h with
  | blank h =>
      rw [run_singleton, step, Text.trim_eq_nil_iff.2 h]
      rfl
  | remark h =>
      obtain ⟨rest, hrest⟩ := h
      rw [run_singleton, step, ← hrest]
      rfl
  | comment h hclosed =>
      rw [run_singleton, step, h]
      exact if_pos (Text.has_iff.2 hclosed)
  | @longComment line rest last inner h hopen hinner hlast =>
      have hfirst : step ⟨n, part, .item, guide⟩ line =
          .ok ⟨n + 1, part, .comment (n + 1), guide⟩ := by
        rw [step, h]
        exact if_neg (Text.has_iff.not.2 hopen)
      have hwait : ∀ l ∈ inner, ∀ m, step ⟨m, part, .comment (n + 1), guide⟩ l =
          .ok ⟨m + 1, part, .comment (n + 1), guide⟩ := by
        intro l hl m
        exact if_neg (Text.has_iff.not.2 (hinner l hl))
      have hend : ∀ m, step ⟨m, part, .comment (n + 1), guide⟩ last =
          .ok ⟨m + 1, part, .item, guide⟩ := by
        intro m
        exact if_pos (Text.has_iff.2 hlast)
      rw [List.cons_append, run_cons, hfirst, Except.bind, run_append, run_waiting hwait,
        Except.bind, run_singleton, hend]
      simp only [List.length_cons, List.length_append, List.length_nil]
      congr 2
      omega

theorem textQuotes_ne_nil : textQuotes ≠ [] := by decide

/-- What follows the closing quotes decides whether the block counts. -/
theorem map_checkTrailer_eq_ok_iff {line : Nat} {trailer : Text} {r s : Reader} :
    (checkTrailer line trailer).map (fun _ => r) = .ok s ↔ IsTrailer trailer ∧ r = s := by
  simp only [checkTrailer, IsTrailer]
  split
  · next h => exact ⟨fun heq => ⟨h, Except.ok.inj heq⟩, fun hs => congrArg _ hs.2⟩
  · next h => exact ⟨fun heq => (nomatch heq), fun hs => absurd hs.1 h⟩

/-- A text whose closing quotes are on the line of its opening quotes. -/
theorem openText_short {opening inside trailer : Text}
    (hclose : Text.FirstAt textQuotes opening inside trailer) (r : Reader) :
    r.openText (textQuotes ++ opening) =
      (checkTrailer (r.line + 1) trailer).map fun _ => r.close (.text (Text.trim inside)) := by
  rw [openText, List.isPrefixOf?_eq_some_iff_append_eq.2 rfl]
  simp only [(Text.cut_eq_some_iff textQuotes_ne_nil).2 hclose]
  rfl

/-- A text that goes on below its opening quotes. -/
theorem openText_long {opening : Text} (hopen : ¬ textQuotes <:+: opening) (r : Reader) :
    r.openText (textQuotes ++ opening) = .ok (r.await (.text (r.line + 1) [opening])) := by
  rw [openText, List.isPrefixOf?_eq_some_iff_append_eq.2 rfl]
  simp only [Text.cut_eq_none_iff.2 hopen]

/-- The lines up to the opening quotes of a text. -/
theorem run_text_lead {lead : List Text} {inline : Bool} {first : Text}
    (h : Lead "Text".toList lead inline first) (hquotes : textQuotes <+: Text.trim first) (n : Nat)
    (guide : Guide) :
    ∃ k pending, lead.length = k + 1 ∧
      run ⟨n, .body, .item, guide⟩ lead =
        openText ⟨n + k, .body, pending, guide⟩ (Text.trim first) := by
  cases h with
  | inline hmarks hfirst =>
      refine ⟨0, .item, rfl, ?_⟩
      rw [run_singleton, step_text_inline n guide hmarks hfirst]
      obtain ⟨tail, -, -, -, rfl⟩ := hmarks
      rw [Text.trim_trim]
      rfl
  | @below line _ blanks hmarks hblanks hfirst =>
      refine ⟨blanks.length + 1, .textMarker (n + 1), by simp, ?_⟩
      have hwait : ∀ l ∈ blanks, ∀ m, step ⟨m, .body, .textMarker (n + 1), guide⟩ l =
          .ok ⟨m + 1, .body, .textMarker (n + 1), guide⟩ := by
        intro l hl m
        exact if_pos (hblanks l hl)
      have hopens : ∀ m, step ⟨m, .body, .textMarker (n + 1), guide⟩ first =
          openText ⟨m, .body, .textMarker (n + 1), guide⟩ (Text.trim first) := by
        intro m
        exact (if_neg (by simp [hfirst])).trans (if_pos (List.isPrefixOf_iff_prefix.2 hquotes))
      rw [List.cons_append, run_cons, step_text_below n guide hmarks, Except.bind, run_append,
        run_waiting hwait, Except.bind, run_singleton, hopens]
      congr 2
      omega

/-- The lines of a text that do not hold its closing quotes. -/
theorem run_text_inside {inner : List Text} (h : ∀ l ∈ inner, ¬ textQuotes <:+: l)
    (n opened : Nat) (block : List Text) (guide : Guide) :
    run ⟨n, .body, .text opened block, guide⟩ inner =
      .ok ⟨n + inner.length, .body, .text opened (block ++ inner), guide⟩ := by
  induction inner generalizing n block with
  | nil => simp
  | cons line inner ih =>
      obtain ⟨hline, hinner⟩ := List.forall_mem_cons.1 h
      have hstep : step ⟨n, .body, .text opened block, guide⟩ line =
          .ok ⟨n + 1, .body, .text opened (block ++ [line]), guide⟩ := by
        simp only [step, textLine, Text.cut_eq_none_iff.2 hline]
        rfl
      rw [run_cons, hstep, Except.bind, ih hinner, List.append_assoc, List.singleton_append,
        List.length_cons]
      congr 2
      omega

/-- The line with the closing quotes of a text. -/
theorem textLine_last {last inside trailer : Text}
    (hclose : Text.FirstAt textQuotes last inside trailer) (r : Reader) (opened : Nat)
    (block : List Text) :
    r.textLine opened block last = (checkTrailer (r.line + 1) trailer).map fun _ =>
      r.close (.text (Text.dedent (block ++ [inside]))) := by
  simp only [textLine, (Text.cut_eq_some_iff textQuotes_ne_nil).2 hclose]
  rfl

/-- **A block of prose** is read as a whole, whatever stands around it. -/
theorem run_textBlock {lines : List Text} {prose : Text} (h : IsTextBlock lines prose) (n : Nat)
    (guide : Guide) :
    run ⟨n, .body, .item, guide⟩ lines =
      .ok ⟨n + lines.length, .body, .item, guide.addBlock (.text prose)⟩ := by
  cases h with
  | short hlead hopening hclose htrailer =>
      obtain ⟨k, pending, hlength, hrun⟩ :=
        run_text_lead hlead (hopening ▸ List.prefix_append _ _) n guide
      rw [hrun, hopening, openText_short hclose]
      refine map_checkTrailer_eq_ok_iff.2 ⟨htrailer, ?_⟩
      rw [hlength]
      rfl
  | @long lead inner inline first opening last inside trailer hlead hopening hopen hinner hclose
      htrailer =>
      obtain ⟨k, pending, hlength, hrun⟩ :=
        run_text_lead hlead (hopening ▸ List.prefix_append _ _) n guide
      rw [run_append, run_append, hrun, hopening, openText_long hopen, Except.bind, await,
        run_text_inside hinner, Except.bind, run_singleton]
      refine (textLine_last hclose _ _ _).trans (map_checkTrailer_eq_ok_iff.2 ⟨htrailer, ?_⟩)
      simp only [close, List.length_append, List.length_cons, List.length_nil, hlength]
      congr 1
      omega

/-! ### Blocks of code -/

/-- The count behind one more line takes that line into account. -/
theorem after_append_singleton (block : List Text) (line : Text) :
    Braces.after (block ++ [line]) = (Braces.after block).addLine line := by
  rw [Braces.after, List.foldl_append]
  rfl

/-- No lines at all stay open, there being none that closes anything. -/
theorem staysOpen_nil : Braces.StaysOpen [] := by
  intro n hn hpos
  rw [List.length_nil] at hn
  omega

/-- Lines that stay open match with a line behind which everything is closed. -/
theorem closes_append_singleton {block : List Text} {line : Text} (hopen : Braces.StaysOpen block)
    (hclosed : Braces.after (block ++ [line]) = .start) : Braces.Closes (block ++ [line]) where
  nonempty := by simp
  opened := by
    intro n hn hpos
    rw [List.length_append, List.length_singleton] at hn
    rw [List.take_append_of_le_length (by omega)]
    exact hopen n (by omega) hpos
  closed := hclosed

/-- Lines that stay open do so with a line behind which something is open. -/
theorem staysOpen_append_singleton {block : List Text} {line : Text}
    (hopen : Braces.StaysOpen block) (hline : (Braces.after (block ++ [line])).isOpen = true) :
    Braces.StaysOpen (block ++ [line]) := by
  intro n hn hpos
  by_cases hshort : n ≤ block.length
  · rw [List.take_append_of_le_length hshort]
    exact hopen n hshort hpos
  · rw [List.take_of_length_le (by simp only [List.length_append, List.length_singleton]; omega)]
    exact hline

/-- A count that is neither open nor below zero is that of no code at all. -/
theorem eq_start_of_not_isOpen {braces : Braces} (hopen : ¬ braces.isOpen = true)
    (hdepth : ¬ braces.depth < 0) : braces = .start := by
  obtain ⟨depth, inRaw⟩ := braces
  simp only [Braces.isOpen, Bool.or_eq_true, decide_eq_true_eq, not_or, Bool.not_eq_true] at hopen
  simp only at hdepth
  obtain ⟨hle, rfl⟩ := hopen
  rw [show depth = 0 by omega]
  rfl

/-- Code is read to the line with which its braces match. -/
theorem codeLine_run (block : List Text) {line : Text} {more : List Text}
    (h : Braces.Closes (block ++ line :: more)) (n : Nat) (pending : Pending) (guide : Guide)
    (kind : CodeKind) (opened : Nat) (inline : Bool) :
    (codeLine ⟨n, .body, pending, guide⟩ kind opened inline (Braces.after block) block line).bind
        (fun r => r.run more) =
      .ok ⟨n + 1 + more.length, .body, .item,
        guide.addBlock (.code kind (codeOf inline (block ++ line :: more)))⟩ := by
  induction more generalizing n pending block line with
  | nil =>
      have hclosed := h.closed
      rw [after_append_singleton] at hclosed
      simp only [codeLine, hclosed]
      rfl
  | cons next more ih =>
      have hopen := h.opened (block.length + 1) (by simp) (by omega)
      rw [show block ++ line :: next :: more = (block ++ [line]) ++ (next :: more) by simp,
        List.take_append_of_le_length (by simp), List.take_of_length_le (by simp)] at hopen
      have hrest : Braces.Closes ((block ++ [line]) ++ next :: more) := by simpa using h
      rw [codeLine, ← after_append_singleton]
      simp only [hopen, if_true, await, Except.bind, run_cons]
      refine (ih _ hrest (n + 1) _).trans ?_
      simp only [List.append_assoc, List.singleton_append, List.length_cons]
      congr 2
      omega

/-- The lines up to the first one of a block of code. -/
theorem run_code_lead {kind : CodeKind} {lead : List Text} {inline : Bool} {first : Text}
    (h : Lead kind.marker lead inline first)
    (hfirst : inline = false → isBoundary (Text.trim first) = false) (n : Nat) (guide : Guide) :
    ∃ k pending, lead.length = k + 1 ∧
      run ⟨n, .body, .item, guide⟩ lead =
        codeLine ⟨n + k, .body, pending, guide⟩ kind (n + lead.length) inline .start [] first := by
  cases h with
  | inline hmarks hne =>
      refine ⟨0, .item, rfl, ?_⟩
      rw [run_singleton, step_code_inline n guide hmarks hne]
      rfl
  | @below line _ blanks hmarks hblanks hblank =>
      refine ⟨blanks.length + 1, .codeMarker kind (n + 1), by simp, ?_⟩
      have hwait : ∀ l ∈ blanks, ∀ m, step ⟨m, .body, .codeMarker kind (n + 1), guide⟩ l =
          .ok ⟨m + 1, .body, .codeMarker kind (n + 1), guide⟩ := by
        intro l hl m
        exact if_pos (hblanks l hl)
      have hopens : ∀ m, step ⟨m, .body, .codeMarker kind (n + 1), guide⟩ first =
          codeLine ⟨m, .body, .codeMarker kind (n + 1), guide⟩ kind (m + 1) false .start []
            first := by
        intro m
        exact (if_neg (by simp [hblank])).trans (if_neg (by simp [hfirst rfl]))
      rw [List.cons_append, run_cons, step_code_below n guide hmarks, Except.bind, run_append,
        run_waiting hwait, Except.bind, run_singleton, hopens]
      rw [show n + 1 + blanks.length = n + (blanks.length + 1) by omega, List.length_cons,
        List.length_append]
      rfl

/-- **A block of code** is read as a whole, whatever stands around it. -/
theorem run_codeBlock {kind : CodeKind} {lines : List Text} {code : Text}
    (h : IsCodeBlock kind lines code) (n : Nat) (guide : Guide) :
    run ⟨n, .body, .item, guide⟩ lines =
      .ok ⟨n + lines.length, .body, .item, guide.addBlock (.code kind code)⟩ := by
  obtain ⟨hlead, hfirst, hcloses⟩ := h
  obtain ⟨k, pending, hlength, hrun⟩ := run_code_lead hlead hfirst n guide
  rw [run_append, hrun]
  refine (codeLine_run [] hcloses (n + k) pending guide kind _ _).trans ?_
  rw [List.length_append, hlength]
  simp only [List.nil_append]
  congr 2
  omega

/-! ### Items are read as wholes -/

/-- A text that begins with neither white space nor a slash begins with its first character. -/
theorem itemLine_of_starts {c : Char} {piece line : Text} (h : (c :: piece) <+: Text.trim line)
    (hc : c ≠ '/') (r : Reader) :
    r.itemLine (Text.trim line) =
      match r.part with
      | .preamble => r.preambleLine (Text.trim line)
      | .body => r.bodyLine (Text.trim line)
      | .trailer => fail (r.line + 1) .afterMain := by
  obtain ⟨rest, hrest⟩ := h
  rw [← hrest]
  exact itemLine_cons hc r _

/-- The line `fun main() {` begins, white space left out, with its `f`. -/
theorem trim_of_isMain {line : Text} (h : isMain line = true) :
    ∃ rest, Text.trim line = 'f' :: rest ∧ isMain (Text.trim line) = true := by
  have hmain : isMain (Text.trim line) = true := by
    rw [isMain, Text.filter_trim]
    exact h
  cases htrim : Text.trim line with
  | nil => simp [htrim, isMain] at hmain
  | cons c rest =>
      have hspace := (Text.isTrimmed_trim line).1 c (by rw [htrim]; rfl)
      have hfilter := of_decide_eq_true (htrim ▸ hmain)
      simp only [List.filter_cons, hspace, Bool.not_false, if_true] at hfilter
      obtain ⟨rfl, -⟩ := List.cons.inj hfilter
      exact ⟨rest, rfl, htrim ▸ hmain⟩

/-- An import is kept unless it is that of the annotations. -/
theorem preambleLine_import {line : Text} (h : "import ".toList <+: line) (r : Reader) :
    r.preambleLine line =
      if Text.has "dokgen.annotations".toList line then .ok r.skip
      else .ok { r.skip with guide := r.guide.addImport line } := by
  obtain ⟨rest, rfl⟩ := h
  rfl

/-- **Locality.** An item is read as a whole, and adds what it adds, whatever stands around it. -/
theorem run_item {part next : Part} {lines : List Text} {addition : Addition}
    (h : Item part lines addition next) (n : Nat) (guide : Guide) :
    run ⟨n, part, .item, guide⟩ lines =
      .ok ⟨n + lines.length, next, .item, guide.add addition⟩ := by
  cases h with
  | skip h => exact run_skip h n part guide
  | directive h hparse =>
      rw [run_singleton, step, itemLine_of_starts h (by decide)]
      simp only [preambleLine, directiveAt, List.isPrefixOf_iff_prefix.2 h, if_true, hparse]
      rfl
  | importLine h hkeep =>
      rw [run_singleton, step, itemLine_of_starts h (by decide)]
      simp only [preambleLine_import h, Text.has_eq_false_iff.2 hkeep]
      rfl
  | annotations h hdrop =>
      rw [run_singleton, step, itemLine_of_starts h (by decide)]
      simp only [preambleLine_import h, Text.has_iff.2 hdrop, if_true]
      rfl
  | package h =>
      rw [run_singleton, step, itemLine_of_starts h (by decide)]
      obtain ⟨rest, hrest⟩ := h
      rw [← hrest]
      rfl
  | main h =>
      obtain ⟨rest, htrim, hmain⟩ := trim_of_isMain h
      rw [run_singleton, step, htrim, itemLine_cons (by decide)]
      rw [htrim] at hmain
      exact if_pos hmain
  | media h hpath =>
      rw [run_singleton, step_media n guide h, mediaLine, hpath]
      rfl
  | text h => exact run_textBlock h n guide
  | code h => exact run_codeBlock h n guide
  | close h =>
      rw [run_singleton, step, h]
      rfl

/-- Reading a stretch of items. -/
theorem run_items {part last : Part} {lines : List Text} {additions : List Addition}
    (h : Items part lines additions last) (n : Nat) (guide : Guide) :
    run ⟨n, part, .item, guide⟩ lines =
      .ok ⟨n + lines.length, last, .item, guide.addAll additions⟩ := by
  induction h generalizing n guide with
  | nil part => rfl
  | cons head tail ih =>
      rw [run_append, run_item head, Except.bind, ih, List.length_append, Nat.add_assoc]
      rfl

/-! ### What the reader is in the middle of -/

/-- The lines of an item that is not complete, read from line `before + 1` on in the given part, and
what the reader is in the middle of behind them. -/
inductive Partial (before : Nat) : Part → List Text → Pending → Prop
  | item {part : Part} : Partial before part [] .item
  | comment {part : Part} {line rest : Text} {inner : List Text}
      (h : Text.trim line = "/*".toList ++ rest) (hopen : ¬ "*/".toList <:+: rest)
      (hinner : ∀ l ∈ inner, ¬ "*/".toList <:+: l) :
      Partial before part (line :: inner) (.comment (before + 1))
  | textMarker {line : Text} {blanks : List Text} (h : Marks line "Text".toList [])
      (hblanks : ∀ l ∈ blanks, Text.isBlank l = true) :
      Partial before .body (line :: blanks) (.textMarker (before + 1))
  | text {lead inner : List Text} {inline : Bool} {first opening : Text}
      (hlead : Lead "Text".toList lead inline first)
      (hopening : Text.trim first = textQuotes ++ opening) (hopen : ¬ textQuotes <:+: opening)
      (hinner : ∀ l ∈ inner, ¬ textQuotes <:+: l) :
      Partial before .body (lead ++ inner) (.text (before + lead.length) (opening :: inner))
  | codeMarker {line : Text} {kind : CodeKind} {blanks : List Text} (h : Marks line kind.marker [])
      (hblanks : ∀ l ∈ blanks, Text.isBlank l = true) :
      Partial before .body (line :: blanks) (.codeMarker kind (before + 1))
  | code {lead more : List Text} {kind : CodeKind} {inline : Bool} {first : Text}
      (hlead : Lead kind.marker lead inline first)
      (hfirst : inline = false → isBoundary (Text.trim first) = false)
      (hopen : Braces.StaysOpen (first :: more)) :
      Partial before .body (lead ++ more)
        (.code kind (before + lead.length) inline (Braces.after (first :: more)) (first :: more))

/-- The lines of an item make it complete, or leave the reader in the middle of it. -/
def Advances (before : Nat) (part : Part) (lines : List Text) (guide : Guide) (r : Reader) : Prop :=
  (∃ addition next, Item part lines addition next ∧
    r = ⟨before + lines.length, next, .item, guide.add addition⟩) ∨
  ∃ pending, Partial before part lines pending ∧ r = ⟨before + lines.length, part, pending, guide⟩

theorem forall_mem_concat {α : Type} {p : α → Prop} {l : List α} {a : α} (hl : ∀ x ∈ l, p x)
    (ha : p a) : ∀ x ∈ l ++ [a], p x :=
  List.forall_mem_append.2 ⟨hl, List.forall_mem_singleton.2 ha⟩

namespace Advances

variable {before : Nat} {part next : Part} {lines : List Text} {line : Text} {guide : Guide}

/-- The line completes the item. -/
theorem complete {addition : Addition} (h : Item part (lines ++ [line]) addition next) :
    Advances before part (lines ++ [line]) guide
      ⟨before + lines.length + 1, next, .item, guide.add addition⟩ :=
  .inl ⟨addition, next, h, by rw [List.length_append]; rfl⟩

/-- The line leaves the reader in the middle of the item. -/
theorem stay {pending : Pending} (h : Partial before part (lines ++ [line]) pending) :
    Advances before part (lines ++ [line]) guide
      ⟨before + lines.length + 1, part, pending, guide⟩ :=
  .inr ⟨pending, h, by rw [List.length_append]; rfl⟩

end Advances

/-- The line with the opening quotes of a text. -/
theorem advances_of_openText {before k : Nat} {pending : Pending} {guide : Guide} {r : Reader}
    {lead : List Text} {inline : Bool} {first : Text}
    (hlead : Lead "Text".toList lead inline first) (hlength : lead.length = k + 1)
    (h : openText ⟨before + k, .body, pending, guide⟩ (Text.trim first) = .ok r) :
    Advances before .body lead guide r := by
  cases hquotes : textQuotes.isPrefixOf? (Text.trim first) with
  | none => simp [openText, hquotes, fail] at h
  | some opening =>
      have hopening := (List.isPrefixOf?_eq_some_iff_append_eq.1 hquotes).symm
      rw [hopening] at h
      cases hcut : Text.cut textQuotes opening with
      | none =>
          have hopen := Text.cut_eq_none_iff.1 hcut
          rw [openText_long hopen, Except.ok.injEq] at h
          have hpartial : Partial before .body (lead ++ [])
              (.text (before + lead.length) [opening]) :=
            .text hlead hopening hopen (List.forall_mem_nil _)
          rw [List.append_nil] at hpartial
          refine .inr ⟨_, hpartial, ?_⟩
          rw [← h, hlength]
          rfl
      | some pieces =>
          obtain ⟨inside, trailer⟩ := pieces
          have hclose := (Text.cut_eq_some_iff textQuotes_ne_nil).1 hcut
          rw [openText_short hclose] at h
          obtain ⟨htrailer, rfl⟩ := map_checkTrailer_eq_ok_iff.1 h
          refine .inl ⟨_, _, .text (.short hlead hopening hclose htrailer), ?_⟩
          rw [hlength]
          rfl

/-- A line inside the string of a text. -/
theorem advances_of_textLine {before n : Nat} {pending : Pending} {guide : Guide} {r : Reader}
    {lead inner : List Text} {inline : Bool} {first opening line : Text}
    (hlead : Lead "Text".toList lead inline first)
    (hopening : Text.trim first = textQuotes ++ opening) (hopen : ¬ textQuotes <:+: opening)
    (hinner : ∀ l ∈ inner, ¬ textQuotes <:+: l) (hn : n = before + (lead ++ inner).length)
    (h : textLine ⟨n, .body, pending, guide⟩ (before + lead.length) (opening :: inner) line =
      .ok r) :
    Advances before .body (lead ++ inner ++ [line]) guide r := by
  subst hn
  cases hcut : Text.cut textQuotes line with
  | none =>
      have hline := Text.cut_eq_none_iff.1 hcut
      have hpartial : Partial before .body (lead ++ (inner ++ [line]))
          (.text (before + lead.length) (opening :: (inner ++ [line]))) :=
        .text hlead hopening hopen (forall_mem_concat hinner hline)
      rw [← List.append_assoc] at hpartial
      simp only [textLine, hcut, Except.ok.injEq] at h
      exact h ▸ .stay hpartial
  | some pieces =>
      obtain ⟨inside, trailer⟩ := pieces
      have hclose := (Text.cut_eq_some_iff textQuotes_ne_nil).1 hcut
      rw [textLine_last hclose] at h
      obtain ⟨htrailer, rfl⟩ := map_checkTrailer_eq_ok_iff.1 h
      exact .complete (.text (.long hlead hopening hopen hinner hclose htrailer))

/-- A line of a block of code, be it the first or a later one. -/
theorem advances_of_codeLine {before n : Nat} {pending : Pending} {guide : Guide} {r : Reader}
    {kind : CodeKind} {lead more front : List Text} {inline : Bool} {first line : Text}
    (hlead : Lead kind.marker lead inline first)
    (hfirst : inline = false → isBoundary (Text.trim first) = false)
    (hfront : front ++ [line] = first :: more) (hopen : Braces.StaysOpen front)
    (hn : n + 1 = before + (lead ++ more).length)
    (h : codeLine ⟨n, .body, pending, guide⟩ kind (before + lead.length) inline
      (Braces.after front) front line = .ok r) :
    Advances before .body (lead ++ more) guide r := by
  simp only [codeLine, ← after_append_singleton] at h
  split at h
  · next hline =>
    have hstays := staysOpen_append_singleton hopen hline
    rw [hfront] at hstays h
    refine .inr ⟨_, .code hlead hfirst hstays, ?_⟩
    rw [← hn, ← Except.ok.inj h]
    rfl
  · next hline =>
    split at h
    · simp [fail] at h
    · next hdepth =>
      have hcloses := closes_append_singleton hopen (eq_start_of_not_isOpen hline hdepth)
      rw [hfront] at hcloses h
      refine .inl ⟨_, _, .code (.mk hlead hfirst hcloses), ?_⟩
      rw [← hn, ← Except.ok.inj h]
      rfl

/-- A line that begins with `@` carries the longest name behind it. -/
theorem marks_of_trim {line marker : Text} (h : Text.trim line = '@' :: marker) :
    Marks line (marker.takeWhile isMarkerChar) (Text.trim (marker.dropWhile isMarkerChar)) := by
  refine ⟨marker.dropWhile isMarkerChar, ?_, fun c hc => List.mem_takeWhile_imp hc, ?_, rfl⟩
  · rw [List.takeWhile_append_dropWhile, h]
  · intro c hc
    have hhead := List.head?_dropWhile_not isMarkerChar marker
    rw [Option.mem_def.1 hc] at hhead
    exact hhead

/-- The line of an image or video. -/
theorem advances_of_mediaLine {before : Nat} {guide : Guide} {r : Reader} {line argument : Text}
    {kind : MediaKind} (hmarks : Marks line kind.marker argument)
    (h : mediaLine ⟨before, .body, .item, guide⟩ kind argument = .ok r) :
    Advances before .body [line] guide r := by
  unfold mediaLine at h
  split at h
  · next hpath => exact .inl ⟨_, _, .media hmarks hpath, (Except.ok.inj h).symm⟩
  · simp [fail] at h
  · simp [fail] at h

/-- A marked line, in the body. -/
theorem advances_of_marks {before : Nat} {guide : Guide} {r : Reader} {line name argument : Text}
    (hmarks : Marks line name argument) (h : step ⟨before, .body, .item, guide⟩ line = .ok r) :
    Advances before .body [line] guide r := by
  rw [step_marked before guide hmarks] at h
  split at h
  · next hname =>
    subst hname
    split at h
    · next hbelow =>
      subst hbelow
      exact .inr ⟨_, .textMarker hmarks (List.forall_mem_nil _), (Except.ok.inj h).symm⟩
    · next hinline =>
      have hlead := Lead.inline hmarks hinline
      obtain ⟨tail, -, -, -, rfl⟩ := hmarks
      rw [← Text.trim_trim] at h
      exact advances_of_openText (k := 0) hlead rfl h
  · split at h
    · next himage =>
      subst himage
      exact advances_of_mediaLine hmarks h
    · split at h
      · next hvideo =>
        subst hvideo
        exact advances_of_mediaLine hmarks h
      · split at h
        · simp [fail] at h
        · next kind hkind =>
          rw [ofMarker?_eq_some_iff] at hkind
          subst hkind
          split at h
          · next hbelow =>
            subst hbelow
            exact .inr ⟨_, .codeMarker hmarks (List.forall_mem_nil _), (Except.ok.inj h).symm⟩
          · next hinline =>
            have hadvances : Advances before .body ([line] ++ []) guide r :=
              advances_of_codeLine (.inline hmarks hinline) (by simp) rfl staysOpen_nil rfl h
            exact hadvances

/-- A trimmed line of the preamble. -/
theorem advances_of_preambleLine {before : Nat} {guide : Guide} {r : Reader} {line : Text}
    (h : preambleLine ⟨before, .preamble, .item, guide⟩ (Text.trim line) = .ok r) :
    Advances before .preamble [line] guide r := by
  unfold preambleLine at h
  split at h
  · next hfile =>
    rw [directiveAt] at h
    cases hparse : Directive.parse (Text.trim line) with
    | error e => simp [hparse, fail] at h
    | ok d =>
        rw [hparse] at h
        exact .inl ⟨_, _, .directive (List.isPrefixOf_iff_prefix.1 hfile) hparse,
          (Except.ok.inj h).symm⟩
  · split at h
    · next himport =>
      have hfront := List.isPrefixOf_iff_prefix.1 himport
      split at h
      · next hdrop =>
        exact .inl ⟨_, _, .annotations hfront (Text.has_iff.1 hdrop), (Except.ok.inj h).symm⟩
      · next hkeep =>
        exact .inl ⟨_, _, .importLine hfront (Text.has_iff.not.1 hkeep), (Except.ok.inj h).symm⟩
    · split at h
      · next hmain =>
        have hline : isMain line = true := by
          rw [isMain, ← Text.filter_trim]
          exact hmain
        exact .inl ⟨_, _, .main hline, (Except.ok.inj h).symm⟩
      · split at h
        · next hpackage =>
          exact .inl ⟨_, _, .package (List.isPrefixOf_iff_prefix.1 hpackage),
            (Except.ok.inj h).symm⟩
        · simp [fail] at h

/-- A line between items, or the first of an item. -/
theorem advances_of_itemLine {before : Nat} {part : Part} {guide : Guide} {r : Reader} {line : Text}
    (h : step ⟨before, part, .item, guide⟩ line = .ok r) :
    Advances before part [line] guide r := by
  have hitem : itemLine ⟨before, part, .item, guide⟩ (Text.trim line) = .ok r := h
  unfold itemLine at hitem
  split at hitem
  · next hblank =>
    exact .inl ⟨_, _, .skip (.blank (Text.trim_eq_nil_iff.1 hblank)), (Except.ok.inj hitem).symm⟩
  · next rest hremark =>
    exact .inl ⟨_, _, .skip (.remark ⟨rest, hremark.symm⟩), (Except.ok.inj hitem).symm⟩
  · next rest hcomment =>
    split at hitem
    · next hclosed =>
      exact .inl ⟨_, _, .skip (.comment hcomment (Text.has_iff.1 hclosed)),
        (Except.ok.inj hitem).symm⟩
    · next hopen =>
      exact .inr ⟨_, .comment hcomment (Text.has_iff.not.1 hopen) (List.forall_mem_nil _),
        (Except.ok.inj hitem).symm⟩
  · cases part with
    | preamble => exact advances_of_preambleLine hitem
    | body =>
        simp only [bodyLine] at hitem
        split at hitem
        · next hclose => exact .inl ⟨_, _, .close hclose, (Except.ok.inj hitem).symm⟩
        · split at hitem
          · next marker hmarker => exact advances_of_marks (marks_of_trim hmarker) h
          · simp [fail] at hitem
    | trailer => simp [fail] at hitem

/-- **One line.** Whatever the reader is in the middle of, one more line makes the item complete or
leaves the reader in the middle of it. -/
theorem step_partial {before : Nat} {part : Part} {rest : List Text} {pending : Pending}
    (hpartial : Partial before part rest pending) {guide : Guide} {r : Reader} {line : Text}
    (h : step ⟨before + rest.length, part, pending, guide⟩ line = .ok r) :
    Advances before part (rest ++ [line]) guide r := by
  cases hpartial with
  | item => exact advances_of_itemLine h
  | comment htrim hopen hinner =>
      by_cases hlast : "*/".toList <:+: line
      · obtain rfl := Except.ok.inj (h.symm.trans (if_pos (Text.has_iff.2 hlast)))
        exact .complete (.skip (.longComment htrim hopen hinner hlast))
      · obtain rfl := Except.ok.inj (h.symm.trans (if_neg (Text.has_iff.not.2 hlast)))
        exact .stay (.comment htrim hopen (forall_mem_concat hinner hlast))
  | @textMarker first blanks hmarks hblanks =>
      by_cases hblank : Text.isBlank line = true
      · obtain rfl := Except.ok.inj (h.symm.trans (if_pos hblank))
        exact .stay (.textMarker hmarks (forall_mem_concat hblanks hblank))
      · have hstep := (if_neg hblank).symm.trans h
        have hlead : Lead "Text".toList (first :: blanks ++ [line]) false line :=
          .below hmarks hblanks (Bool.not_eq_true _ ▸ hblank)
        split at hstep
        · exact advances_of_openText hlead List.length_append hstep
        · simp [fail] at hstep
  | text hlead hopening hopen hinner => exact advances_of_textLine hlead hopening hopen hinner rfl h
  | @codeMarker first kind blanks hmarks hblanks =>
      by_cases hblank : Text.isBlank line = true
      · obtain rfl := Except.ok.inj (h.symm.trans (if_pos hblank))
        exact .stay (.codeMarker hmarks (forall_mem_concat hblanks hblank))
      · have hstep := (if_neg hblank).symm.trans h
        have hlead : Lead kind.marker (first :: blanks ++ [line]) false line :=
          .below hmarks hblanks (Bool.not_eq_true _ ▸ hblank)
        have hlength : before + (first :: blanks).length + 1 =
            before + (first :: blanks ++ [line]).length := by
          rw [List.length_append, List.length_singleton, Nat.add_assoc]
        split at hstep
        · simp [fail] at hstep
        · next hboundary =>
          rw [hlength] at hstep
          have hadvances : Advances before .body ((first :: blanks ++ [line]) ++ []) guide r :=
            advances_of_codeLine hlead (fun _ => Bool.not_eq_true _ ▸ hboundary) rfl staysOpen_nil
              (by rw [List.append_nil, hlength]) hstep
          rwa [List.append_nil] at hadvances
  | @code lead more kind inline first hlead hfirst hopen =>
      have hadvances : Advances before .body (lead ++ (more ++ [line])) guide r :=
        advances_of_codeLine hlead hfirst rfl hopen
          (by simp only [List.length_append, List.length_singleton, Nat.add_assoc]) h
      rwa [← List.append_assoc] at hadvances

/-- The lines read from line `n + 1` on, in the given part, are a stretch of complete items and the
beginning of one more, and the reader has added to `guide` what the items add. -/
def Reached (n : Nat) (part : Part) (guide : Guide) (lines : List Text) (r : Reader) : Prop :=
  ∃ (done rest : List Text) (additions : List Addition), lines = done ++ rest ∧
    Items part done additions r.part ∧ Partial (n + done.length) r.part rest r.pending ∧
    r.guide = guide.addAll additions ∧ r.line = n + lines.length

/-- Before the first line. -/
theorem reached_nil (n : Nat) (part : Part) (guide : Guide) :
    Reached n part guide [] ⟨n, part, .item, guide⟩ :=
  ⟨[], [], [], rfl, .nil part, .item, rfl, rfl⟩

/-- **What one line preserves.** -/
theorem step_reached {n : Nat} {part : Part} {guide : Guide} {lines : List Text} {r s : Reader}
    {line : Text} (hr : Reached n part guide lines r) (h : r.step line = .ok s) :
    Reached n part guide (lines ++ [line]) s := by
  obtain ⟨done, rest, additions, rfl, hdone, hrest, hguide, hline⟩ := hr
  obtain ⟨rline, rpart, rpending, rguide⟩ := r
  simp only at hdone hrest hguide hline
  subst hguide hline
  rw [List.length_append, ← Nat.add_assoc] at h
  rcases step_partial hrest h with ⟨addition, next, hitem, rfl⟩ | ⟨pending, hpartial, rfl⟩
  · refine ⟨done ++ (rest ++ [line]), [], additions ++ [addition], by simp,
      hdone.append (.of_item hitem), .item, ?_, ?_⟩
    · rw [addAll_append]
      rfl
    · simp only [List.length_append, Nat.add_assoc]
  · refine ⟨done, rest ++ [line], additions, by simp, hdone, hpartial, rfl, ?_⟩
    simp only [List.length_append, Nat.add_assoc]

/-- **What any lines preserve.** -/
theorem run_reached {n : Nat} {part : Part} {guide : Guide} {seen lines : List Text} {r s : Reader}
    (hr : Reached n part guide seen r) (h : r.run lines = .ok s) :
    Reached n part guide (seen ++ lines) s := by
  induction lines generalizing seen r with
  | nil =>
      rw [List.append_nil, ← Except.ok.inj h]
      exact hr
  | cons line lines ih =>
      rw [run_cons] at h
      cases hstep : r.step line with
      | error e => simp [hstep, Except.bind] at h
      | ok next =>
          rw [hstep, Except.bind] at h
          have hnext := ih (step_reached hr hstep) h
          rwa [List.append_assoc, List.singleton_append] at hnext

/-- Behind complete items, the reader is in the middle of nothing. -/
theorem items_of_reached {n : Nat} {part : Part} {guide : Guide} {lines : List Text} {r : Reader}
    (h : Reached n part guide lines r) (hpending : r.pending = .item) :
    ∃ additions, Items part lines additions r.part ∧ r.guide = guide.addAll additions := by
  obtain ⟨done, rest, additions, rfl, hdone, hrest, hguide, -⟩ := h
  obtain ⟨rline, rpart, rpending, rguide⟩ := r
  subst hpending
  cases hrest with
  | item => exact ⟨additions, by rwa [List.append_nil], hguide⟩

/-- Reading ends well only behind the closing `}`, in the middle of nothing. -/
theorem finish_eq_ok_iff {r : Reader} {guide : Guide} :
    r.finish = .ok guide ↔ r.pending = .item ∧ r.part = .trailer ∧ r.guide = guide := by
  obtain ⟨line, part, pending, rguide⟩ := r
  cases pending <;> cases part <;> simp [finish, fail]

end Reader

section Prefix

variable {front rest : List Text} {r : Reader}

/-- Where some lines lead and what is read behind them. -/
theorem ofLines_append (hfront : Reader.start.run front = .ok r) :
    ofLines (front ++ rest) = (r.run rest).bind Reader.finish := by
  rw [ofLines, Reader.run_append, hfront]
  rfl

/-- The reader has counted the lines. -/
theorem line_of_run (hfront : Reader.start.run front = .ok r) : r.line = front.length := by
  obtain ⟨-, -, -, -, -, -, -, hline⟩ :=
    Reader.run_reached (Reader.reached_nil 0 .preamble .empty) hfront
  simpa using hline

/-- Between items, the reader is told by the number of the lines and by what they have added. -/
theorem exists_guide_of_run {part : Part} (hfront : Reader.start.run front = .ok r)
    (hpart : r.part = part) (hitem : r.pending = .item) :
    ∃ guide, r = ⟨front.length, part, .item, guide⟩ := by
  have hline := line_of_run hfront
  obtain ⟨n, rpart, pending, guide⟩ := r
  simp only at hline hpart hitem
  exact ⟨guide, by rw [hline, hpart, hitem]⟩

end Prefix

/-- Behind some lines, the lines that are accepted are those that can be cut into items up to
the end of a guide, and the guide that is read gains what the items add. -/
theorem ofLines_append_eq_ok_iff {front rest : List Text} {n : Nat} {part : Part}
    {guide read : Guide} (hfront : Reader.start.run front = .ok ⟨n, part, .item, guide⟩) :
    ofLines (front ++ rest) = .ok read ↔
      ∃ additions, Items part rest additions .trailer ∧ read = guide.addAll additions := by
  rw [ofLines_append hfront]
  constructor
  · intro h
    cases hrun : Reader.run ⟨n, part, .item, guide⟩ rest with
    | error e => simp [hrun, Except.bind] at h
    | ok r =>
        rw [hrun, Except.bind] at h
        obtain ⟨hpending, hpart, rfl⟩ := Reader.finish_eq_ok_iff.1 h
        have hreached := Reader.run_reached (Reader.reached_nil n part guide) hrun
        obtain ⟨additions, hitems, hguide⟩ := Reader.items_of_reached hreached hpending
        rw [hpart] at hitems
        exact ⟨additions, hitems, hguide⟩
  · rintro ⟨additions, hitems, rfl⟩
    rw [Reader.run_items hitems]
    rfl

/-- **Reading and grammar agree.** The lines that are accepted are those that can be cut into the
items of a whole guide, and the guide that is read is what the items add up to. -/
theorem ofLines_eq_ok_iff {lines : List Text} {guide : Guide} :
    ofLines lines = .ok guide ↔
      ∃ additions, Items .preamble lines additions .trailer ∧ guide = empty.addAll additions :=
  ofLines_append_eq_ok_iff (Reader.run_nil .start)

/-- **The accepted sources** are those whose lines can be cut, in order and with none left over,
into items of the preamble, the line `fun main() {`, items of the body, the line `}`, and blanks and
comments. -/
theorem read_accepts_iff (content : Text) :
    (∃ guide, read content = .ok guide) ↔
      ∃ (preamble body skips : List (List Text)) (main close : Text),
        sourceLines content =
          preamble.flatten ++ [main] ++ body.flatten ++ [close] ++ skips.flatten ∧
        (∀ item ∈ preamble, IsPreambleItem item) ∧ isMain main = true ∧
        (∀ item ∈ body, IsBodyItem item) ∧ Text.trim close = ['\x7d'] ∧
        ∀ item ∈ skips, IsSkip item := by
  rw [← items_iff]
  constructor
  · rintro ⟨guide, hread⟩
    obtain ⟨additions, hitems, -⟩ := ofLines_eq_ok_iff.1 hread
    exact ⟨additions, hitems⟩
  · rintro ⟨additions, hitems⟩
    exact ⟨_, ofLines_eq_ok_iff.2 ⟨additions, hitems, rfl⟩⟩

end Guidebook.Guide
