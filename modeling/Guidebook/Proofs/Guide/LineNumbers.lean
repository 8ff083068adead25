import Guidebook.Proofs.Guide.SourceLines

/-!
# Line Numbers

The reader counts lines, and remembers at which line the item began that it is in the middle of. It
does nothing else with these numbers than to report an error at one of them. So the same lines read
further down give the same guide, and the same error further down; and an error is reported at the
line just read, or at the one at which the item began, or where the source ends.

## Main results

* `Guide.Reader.step_later`, `Guide.Reader.run_later`: **reading further down**.
* `Guide.Reader.line_of_step_error`: at which line an error is reported.
* `Guide.Reader.line_of_error`: it is one of the lines read, but for the end of the source.
-/

namespace Guidebook.Guide

/-- The error, further down by so many lines. -/
def Error.later (count : Nat) (e : Error) : Error :=
  ⟨count + e.line, e.fault⟩

namespace Pending

/-- The same, begun further down by so many lines. -/
def later (count : Nat) : Pending → Pending
  | .item => .item
  | .comment opened => .comment (count + opened)
  | .textMarker marker => .textMarker (count + marker)
  | .text opened block => .text (count + opened) block
  | .codeMarker kind marker => .codeMarker kind (count + marker)
  | .code kind opened inline braces block => .code kind (count + opened) inline braces block

/-- The line at which it began. -/
def opened? : Pending → Option Nat
  | .item => none
  | .comment opened => some opened
  | .textMarker marker => some marker
  | .text opened _ => some opened
  | .codeMarker _ marker => some marker
  | .code _ opened _ _ _ => some opened

end Pending

namespace Reader

/-- The reader, further down by so many lines. -/
def later (count : Nat) (r : Reader) : Reader :=
  ⟨count + r.line, r.part, r.pending.later count, r.guide⟩

/-- What reading results in, further down by so many lines. -/
def resultLater (count : Nat) : Except Error Reader → Except Error Reader
  | .ok r => .ok (r.later count)
  | .error e => .error (e.later count)

/-! ### Reading further down -/

section Later

variable (count : Nat) (r : Reader)

/-- What follows closing quotes is rejected further down as it is here. -/
theorem checkTrailer_later (line : Nat) (trailer : Text) :
    checkTrailer (count + line) trailer =
      (checkTrailer line trailer).mapError (Error.later count) := by
  simp only [checkTrailer]
  split <;> rfl

/-- A block that is closed if nothing follows its quotes is closed further down. -/
theorem map_checkTrailer_later (line : Nat) (trailer : Text) (block : Block) :
    (checkTrailer (count + line) trailer).map (fun _ => (r.later count).close block) =
      resultLater count ((checkTrailer line trailer).map fun _ => r.close block) := by
  rw [checkTrailer_later]
  cases checkTrailer line trailer <;> rfl

/-- Opening quotes are read further down as they are here. -/
theorem openText_later (opening : Text) :
    (r.later count).openText opening = resultLater count (r.openText opening) := by
  simp only [openText]
  cases textQuotes.isPrefixOf? opening with
  | none => rfl
  | some first =>
      cases hcut : Text.cut textQuotes first with
      | none => simp only [hcut]; rfl
      | some pieces =>
          simp only [hcut]
          exact map_checkTrailer_later count r (r.line + 1) pieces.2 _

/-- A line of a text is read further down as it is here, if the text began as much further down. -/
theorem textLine_later (opened : Nat) (block : List Text) (line : Text) :
    (r.later count).textLine (count + opened) block line =
      resultLater count (r.textLine opened block line) := by
  simp only [textLine]
  cases Text.cut textQuotes line with
  | none => rfl
  | some pieces => exact map_checkTrailer_later count r (r.line + 1) pieces.2 _

/-- A line of code is read further down as it is here, if the code began as much further down. -/
theorem codeLine_later (kind : CodeKind) (opened : Nat) (inline : Bool) (braces : Braces)
    (block : List Text) (line : Text) :
    (r.later count).codeLine kind (count + opened) inline braces block line =
      resultLater count (r.codeLine kind opened inline braces block line) := by
  simp only [codeLine]
  split
  · rfl
  · split <;> rfl

/-- An image or video is read further down as it is here. -/
theorem mediaLine_later (kind : MediaKind) (argument : Text) :
    (r.later count).mediaLine kind argument = resultLater count (r.mediaLine kind argument) := by
  simp only [mediaLine]
  split <;> rfl

/-- Any marker is read further down as it is here. -/
theorem markerLine_later (marker : Text) :
    (r.later count).markerLine marker = resultLater count (r.markerLine marker) := by
  simp only [markerLine]
  split
  · split
    · rfl
    · exact openText_later count r _
  · split
    · exact mediaLine_later count r _ _
    · split
      · exact mediaLine_later count r _ _
      · split
        · rfl
        · split
          · rfl
          · exact codeLine_later count r _ (r.line + 1) _ _ _ _

/-- A line of the preamble is read further down as it is here. -/
theorem preambleLine_later (line : Text) :
    (r.later count).preambleLine line = resultLater count (r.preambleLine line) := by
  simp only [preambleLine, directiveAt]
  cases Directive.parse line with
  | ok d => split_ifs <;> rfl
  | error e => split_ifs <;> rfl

/-- A line of the body is read further down as it is here. -/
theorem bodyLine_later (line : Text) :
    (r.later count).bodyLine line = resultLater count (r.bodyLine line) := by
  simp only [bodyLine]
  split
  · rfl
  · split
    · exact markerLine_later count r _
    · rfl

/-- Any line between items is read further down as it is here. -/
theorem itemLine_later (h : r.pending = .item) (line : Text) :
    (r.later count).itemLine line = resultLater count (r.itemLine line) := by
  obtain ⟨n, part, pending, guide⟩ := r
  subst h
  unfold itemLine
  split
  · rfl
  · rfl
  · split <;> rfl
  · cases part with
    | preamble => exact preambleLine_later count ⟨n, .preamble, .item, guide⟩ _
    | body => exact bodyLine_later count ⟨n, .body, .item, guide⟩ _
    | trailer => rfl

/-- **One line further down.** -/
theorem step_later (line : Text) : (r.later count).step line = resultLater count (r.step line) := by
  obtain ⟨n, part, pending, guide⟩ := r
  cases pending with
  | item => exact itemLine_later count ⟨n, part, .item, guide⟩ rfl (Text.trim line)
  | comment opened =>
      simp only [step, later, Pending.later]
      split <;> rfl
  | textMarker marker =>
      simp only [step, later, Pending.later]
      split
      · rfl
      · split
        · exact openText_later count ⟨n, part, .textMarker marker, guide⟩ _
        · rfl
  | text opened block => exact textLine_later count ⟨n, part, .text opened block, guide⟩ _ _ _
  | codeMarker kind marker =>
      simp only [step, later, Pending.later]
      split
      · rfl
      · split
        · rfl
        · exact codeLine_later count ⟨n, part, .codeMarker kind marker, guide⟩ _ (n + 1) _ _ _ _
  | code kind opened inline braces block =>
      exact codeLine_later count ⟨n, part, .code kind opened inline braces block, guide⟩ _ _ _ _ _ _

/-- **Any lines further down.** -/
theorem run_later (lines : List Text) :
    (r.later count).run lines = resultLater count (r.run lines) := by
  induction lines generalizing r with
  | nil => rfl
  | cons line lines ih =>
      rw [run_cons, run_cons, step_later]
      cases r.step line with
      | error e => rfl
      | ok next => exact ih next

/-- The end further down, unless there are no lines at all. -/
theorem finish_later (h : r.line ≠ 0) :
    (r.later count).finish = r.finish.mapError (Error.later count) := by
  obtain ⟨n, part, pending, guide⟩ := r
  have hline : max 1 (count + n) = count + max 1 n := by
    rw [max_eq_right, max_eq_right]
    · exact Nat.one_le_iff_ne_zero.2 h
    · exact (Nat.one_le_iff_ne_zero.2 h).trans (Nat.le_add_left n count)
  cases pending <;> cases part <;>
    simp [finish, later, Pending.later, fail, Except.mapError, Error.later, hline]

end Later

/-! ### Lines of errors -/

section Errors

variable {r : Reader} {e : Error}

/-- A failure is the error at that line with that fault. -/
theorem eq_of_fail {line : Nat} {fault : Fault}
    (h : (fail line fault : Except Error Reader) = .error e) : e = ⟨line, fault⟩ :=
  (Except.error.inj h).symm

/-- What follows closing quotes is rejected at its line, and quoted without its margins. -/
theorem eq_of_map_checkTrailer {line : Nat} {trailer : Text} {s : Reader}
    (h : (checkTrailer line trailer).map (fun _ => s) = .error e) :
    e = ⟨line, .textTrailer (Text.trim trailer)⟩ := by
  simp only [checkTrailer] at h
  split at h
  · cases h
  · exact (Except.error.inj h).symm

/-- A failure is at the line given for it. -/
theorem line_of_fail {line : Nat} {fault : Fault}
    (h : (fail line fault : Except Error Reader) = .error e) : e.line = line :=
  congrArg Error.line (eq_of_fail h)

/-- What follows closing quotes is rejected at its line. -/
theorem line_of_map_checkTrailer {line : Nat} {trailer : Text} {s : Reader}
    (h : (checkTrailer line trailer).map (fun _ => s) = .error e) : e.line = line :=
  congrArg Error.line (eq_of_map_checkTrailer h)

/-- Opening quotes are rejected at the line just read. -/
theorem line_of_openText {opening : Text} (h : r.openText opening = .error e) :
    e.line = r.line + 1 := by
  simp only [openText] at h
  split at h
  · exact line_of_fail h
  · split at h
    · cases h
    · exact line_of_map_checkTrailer h

/-- A line of a text is rejected at its own number. -/
theorem line_of_textLine {opened : Nat} {block : List Text} {line : Text}
    (h : r.textLine opened block line = .error e) : e.line = r.line + 1 := by
  simp only [textLine] at h
  split at h
  · cases h
  · exact line_of_map_checkTrailer h

/-- Braces that do not match are reported where the code began. -/
theorem line_of_codeLine {kind : CodeKind} {opened : Nat} {inline : Bool} {braces : Braces}
    {block : List Text} {line : Text}
    (h : r.codeLine kind opened inline braces block line = .error e) : e.line = opened := by
  simp only [codeLine] at h
  split at h
  · cases h
  · split at h
    · exact line_of_fail h
    · cases h

/-- An image or video is rejected at the line just read. -/
theorem line_of_mediaLine {kind : MediaKind} {argument : Text}
    (h : r.mediaLine kind argument = .error e) : e.line = r.line + 1 := by
  simp only [mediaLine] at h
  split at h
  · cases h
  · exact line_of_fail h
  · exact line_of_fail h

/-- A marked line is rejected at its own number, also for the block that begins on it. -/
theorem line_of_markerLine {marker : Text} (h : r.markerLine marker = .error e) :
    e.line = r.line + 1 := by
  simp only [markerLine] at h
  split at h
  · split at h
    · cases h
    · exact line_of_openText h
  · split at h
    · exact line_of_mediaLine h
    · split at h
      · exact line_of_mediaLine h
      · split at h
        · exact line_of_fail h
        · split at h
          · cases h
          · exact line_of_codeLine h

/-- A line of the preamble is rejected at its own number. -/
theorem line_of_preambleLine {line : Text} (h : r.preambleLine line = .error e) :
    e.line = r.line + 1 := by
  simp only [preambleLine, directiveAt] at h
  cases hparse : Directive.parse line with
  | ok d =>
      rw [hparse] at h
      split_ifs at h
      all_goals exact line_of_fail h
  | error cause =>
      rw [hparse] at h
      split_ifs at h
      all_goals exact line_of_fail h

/-- Any line between items is rejected at its own number. -/
theorem line_of_itemLine {line : Text} (h : r.itemLine line = .error e) : e.line = r.line + 1 := by
  unfold itemLine at h
  split at h
  · cases h
  · cases h
  · split at h <;> cases h
  · split at h
    · exact line_of_preambleLine h
    · simp only [bodyLine] at h
      split at h
      · cases h
      · split at h
        · exact line_of_markerLine h
        · exact line_of_fail h
    · exact line_of_fail h

/-- **Where an error is reported**: at the line just read, or where the item began. -/
theorem line_of_step_error {line : Text} (h : r.step line = .error e) :
    e.line = r.line + 1 ∨ r.pending.opened? = some e.line := by
  obtain ⟨n, part, pending, guide⟩ := r
  cases pending with
  | item => exact .inl (line_of_itemLine h)
  | comment opened =>
      simp only [step] at h
      split at h <;> cases h
  | textMarker marker =>
      simp only [step] at h
      split at h
      · cases h
      · split at h
        · exact .inl (line_of_openText h)
        · exact .inr (congrArg some (line_of_fail h).symm)
  | text opened block => exact .inl (line_of_textLine h)
  | codeMarker kind marker =>
      simp only [step] at h
      split at h
      · cases h
      · split at h
        · exact .inr (congrArg some (line_of_fail h).symm)
        · exact .inl (line_of_codeLine h)
  | code kind opened inline braces block =>
      exact .inr (congrArg some (line_of_codeLine h).symm)

/-- Lines that are not read to their end are read up to the one with the error. -/
theorem exists_failed_line {lines : List Text} (h : r.run lines = .error e) :
    ∃ front line rest s, lines = front ++ line :: rest ∧ r.run front = .ok s ∧
      s.step line = .error e := by
  induction lines generalizing r with
  | nil => cases h
  | cons line lines ih =>
      rw [run_cons] at h
      cases hstep : r.step line with
      | error cause =>
          rw [hstep] at h
          exact ⟨[], line, lines, r, rfl, rfl, hstep.trans h⟩
      | ok next =>
          rw [hstep] at h
          obtain ⟨front, failed, rest, s, rfl, hrun, hfailed⟩ := ih h
          exact ⟨line :: front, failed, rest, s, rfl, by rw [run_cons, hstep]; exact hrun, hfailed⟩

end Errors

/-! ### Errors of sources -/

/-- What the reader is in the middle of began at one of the lines of its item. -/
theorem Partial.opened_le {before opened : Nat} {part : Part} {lines : List Text}
    {pending : Pending} (h : Partial before part lines pending)
    (hopened : pending.opened? = some opened) :
    before < opened ∧ opened ≤ before + lines.length := by
  have hlead : ∀ {name first : Text} {lead : List Text} {inline : Bool},
      Lead name lead inline first → 0 < lead.length := by
    intro name first lead inline h
    cases h <;> simp
  cases h with
  | item => cases hopened
  | text h _ _ _ | code h _ _ =>
      obtain rfl := Option.some.inj hopened
      have hpos := hlead h
      rw [List.length_append]
      omega
  | comment | textMarker | codeMarker =>
      obtain rfl := Option.some.inj hopened
      rw [List.length_cons]
      omega

/-- **Where an error of a source is reported**: at one of the lines read since the reader was in the
middle of nothing, or, if `fun main` or its end is missing, at the last line. -/
theorem line_of_error {n : Nat} {part : Part} {guide : Guide} {lines : List Text} {e : Error}
    (h : (run ⟨n, part, .item, guide⟩ lines).bind finish = .error e) :
    n < e.line ∧ e.line ≤ n + lines.length ∨
      e.line = max 1 (n + lines.length) ∧ (e.fault = .mainMissing ∨ e.fault = .mainOpen) := by
  cases hrun : run ⟨n, part, .item, guide⟩ lines with
  | error cause =>
      rw [hrun] at h
      obtain rfl := Except.error.inj h
      obtain ⟨front, line, rest, s, rfl, hfront, hstep⟩ := exists_failed_line hrun
      obtain ⟨done, begun, -, rfl, -, hpartial, -, hline⟩ :=
        run_reached (reached_nil n part guide) hfront
      simp only [List.nil_append, List.length_append, List.length_cons] at hline ⊢
      left
      rcases line_of_step_error hstep with herror | herror
      · omega
      · have hopened := Partial.opened_le hpartial herror
        omega
  | ok s =>
      rw [hrun, Except.bind] at h
      obtain ⟨done, begun, -, rfl, -, hpartial, -, hline⟩ :=
        run_reached (reached_nil n part guide) hrun
      obtain ⟨sline, spart, spending, sguide⟩ := s
      simp only [List.nil_append, List.length_append] at hline hpartial ⊢
      subst hline
      cases spending with
      | item =>
          right
          cases spart with
          | preamble =>
              obtain rfl := Except.error.inj h
              exact ⟨rfl, .inl rfl⟩
          | body =>
              obtain rfl := Except.error.inj h
              exact ⟨rfl, .inr rfl⟩
          | trailer => cases h
      | _ =>
          left
          obtain rfl := Except.error.inj h
          have hopened := Partial.opened_le hpartial rfl
          simp only at hopened ⊢
          omega

end Reader

end Guidebook.Guide
