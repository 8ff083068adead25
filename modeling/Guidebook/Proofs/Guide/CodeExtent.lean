import Guidebook.Proofs.Guide.BraceCount
import Guidebook.Proofs.Guide.SourceLines
import Mathlib.Data.Nat.Find

/-!
# How Far Code Goes

The reader takes the code behind a marker line by line. How far the code goes is told by the whole
text of its lines: it ends with the first line behind which one is in no raw string and in no brace.
If a brace has been closed too many there, or if there is no such line, the braces are not balanced.

## Main results

* `Braces.Extends`: how many more lines code goes on for.
* `Guide.Reader.run_code_extends`: code is **read as far as it goes**.
* `Guide.extent_of_code`: what becomes of the code behind any marker.
-/

namespace Guidebook

/-! ### Extents -/

namespace Braces

/-- The lines can be all of a block of code: one is in no raw string and in no brace behind them. -/
def CanEnd (lines : List Text) : Prop :=
  (ofText (Text.join ['\n'] lines)).inRaw = false ∧ (ofText (Text.join ['\n'] lines)).depth ≤ 0

/-- Code that begins with a line goes on for `n` more lines: it can end behind them, and behind no
fewer. -/
structure Extends (first : Text) (more : List Text) (n : Nat) : Prop where
  le : n ≤ more.length
  canEnd : CanEnd (first :: more.take n)
  least : ∀ m < n, ¬ CanEnd (first :: more.take m)

variable {lines more : List Text} {first : Text} {n : Nat}

/-- The reader's count behind some lines is that of their whole text. -/
theorem after_eq_ofText (hlines : ∀ line ∈ lines, '\n' ∉ line) :
    after lines = ofText (Text.join ['\n'] lines) :=
  foldl_addLine hlines start

/-- Code can end behind lines just if the reader finds nothing open there. -/
theorem canEnd_iff (hlines : ∀ line ∈ lines, '\n' ∉ line) :
    CanEnd lines ↔ ¬ (after lines).isOpen = true := by
  rw [CanEnd, ← after_eq_ofText hlines, isOpen, Bool.or_eq_true, decide_eq_true_eq]
  simp only [not_or, Int.not_lt, Bool.not_eq_true]
  exact and_comm

/-- Code goes on for some number of lines, or it can end behind none of them. -/
theorem exists_extends_or (first : Text) (more : List Text) :
    (∃ n, Extends first more n) ∨ ∀ n ≤ more.length, ¬ CanEnd (first :: more.take n) := by
  classical
  by_cases h : ∃ n, n ≤ more.length ∧ CanEnd (first :: more.take n)
  · refine .inl ⟨Nat.find h, (Nat.find_spec h).1, (Nat.find_spec h).2, fun m hm hend => ?_⟩
    exact Nat.find_min h hm ⟨hm.le.trans (Nat.find_spec h).1, hend⟩
  · exact .inr fun n hn hend => h ⟨n, hn, hend⟩

/-- Code that can end behind none of the given lines stays open. -/
theorem staysOpen_of_not_canEnd (hlines : ∀ line ∈ first :: more, '\n' ∉ line)
    (h : ∀ m ≤ more.length, ¬ CanEnd (first :: more.take m)) : StaysOpen (first :: more) := by
  intro m hm hpos
  obtain ⟨m, rfl⟩ := Nat.exists_eq_add_one_of_ne_zero hpos.ne'
  have hfeeds : ∀ line ∈ first :: more.take m, '\n' ∉ line := fun line hline =>
    hlines line (List.take_subset (m + 1) (first :: more) hline)
  have hopen := h m (by simpa using hm)
  rw [canEnd_iff hfeeds, not_not] at hopen
  exact hopen

/-- Lines without their last one stay open if all of them do. -/
theorem StaysOpen.of_append {block : List Text} {line : Text} (h : StaysOpen (block ++ [line])) :
    StaysOpen block := by
  intro n hn hpos
  have hopen := h n (by simp only [List.length_append]; omega) hpos
  rwa [List.take_append_of_le_length hn] at hopen

/-- Behind its last line, code that extends so far can end, and behind the others
something is open. -/
theorem Extends.exists_split (hlines : ∀ line ∈ first :: more, '\n' ∉ line)
    (h : Extends first more n) :
    ∃ block last, first :: more.take n = block ++ [last] ∧ StaysOpen block ∧ block.length = n ∧
      ¬ (after (first :: more.take n)).isOpen = true := by
  have hfeeds : ∀ line ∈ first :: more.take n, '\n' ∉ line := fun line hline =>
    hlines line (List.take_subset (n + 1) (first :: more) hline)
  have hend := (canEnd_iff hfeeds).1 h.canEnd
  cases n with
  | zero => exact ⟨[], first, rfl, Guide.Reader.staysOpen_nil, rfl, hend⟩
  | succ n =>
      have hle := h.le
      refine ⟨first :: more.take n, more[n], ?_, ?_, by simpa using by omega, hend⟩
      · rw [List.cons_append, List.take_append_getElem]
      · refine staysOpen_of_not_canEnd (fun line hline => hlines line ?_) fun m hm => ?_
        · exact List.take_subset (n + 1) (first :: more) hline
        · rw [List.length_take] at hm
          rw [List.take_take, min_eq_left (by omega)]
          exact h.least m (by omega)

end Braces

namespace Guide

namespace Reader

/-! ### Reading code -/

section Code

variable (n : Nat) (guide : Guide) (kind : CodeKind) (opened : Nat) (inline : Bool)

/-- Lines behind each of which something is open are all code. -/
theorem run_code_inside {block : List Text} (h : Braces.StaysOpen block) :
    run ⟨n, .body, .code kind opened inline .start [], guide⟩ block =
      .ok ⟨n + block.length, .body, .code kind opened inline (Braces.after block) block,
        guide⟩ := by
  induction block using List.reverseRecOn with
  | nil => rfl
  | append_singleton block line ih =>
      have hopen := h (block.length + 1) (by simp) (by omega)
      rw [List.take_of_length_le (by simp)] at hopen
      rw [run_append, ih h.of_append, Except.bind, run_singleton]
      simp only [step, codeLine, ← after_append_singleton, hopen, if_true, await,
        List.length_append, List.length_singleton, Nat.add_assoc]

/-- **Code is read as far as it goes**; a brace too many is an error. -/
theorem run_code_extends {first : Text} {more : List Text} {count : Nat}
    (hlines : ∀ line ∈ first :: more, '\n' ∉ line) (h : Braces.Extends first more count) :
    run ⟨n, .body, .code kind opened inline .start [], guide⟩ (first :: more.take count) =
      if (Braces.ofText (Text.join ['\n'] (first :: more.take count))).depth < 0 then
        fail opened (.unbalanced kind)
      else
        .ok ⟨n + (count + 1), .body, .item,
          guide.addBlock (.code kind (codeOf inline (first :: more.take count)))⟩ := by
  have hfeeds : ∀ line ∈ first :: more.take count, '\n' ∉ line := fun line hline =>
    hlines line (List.take_subset (count + 1) (first :: more) hline)
  obtain ⟨block, last, hsplit, hopen, rfl, hend⟩ := h.exists_split hlines
  rw [← Braces.after_eq_ofText hfeeds]
  rw [hsplit] at hend ⊢
  rw [run_append, run_code_inside n guide kind opened inline hopen, Except.bind, run_singleton]
  simp only [step, codeLine, ← after_append_singleton]
  rw [if_neg hend]
  rfl

end Code

/-- From its marker on, code is read like code from its first line on. -/
theorem exists_run_code {kind : CodeKind} {lead : List Text} {inline : Bool} {first : Text}
    (h : Lead kind.marker lead inline first)
    (hfirst : inline = false → isBoundary (Text.trim first) = false) (n : Nat) (guide : Guide) :
    ∃ k, lead.length = k + 1 ∧ ∀ more, run ⟨n, .body, .item, guide⟩ (lead ++ more) =
      run ⟨n + k, .body, .code kind (n + lead.length) inline .start [], guide⟩ (first :: more) := by
  obtain ⟨k, pending, hlength, hrun⟩ := run_code_lead h hfirst n guide
  refine ⟨k, hlength, fun more => ?_⟩
  rw [run_append, hrun, run_cons]
  rfl

/-- Below a line, there are first the blank lines, if any. -/
theorem exists_blanks (below : List Text) :
    ∃ blanks rest, below = blanks ++ rest ∧ (∀ l ∈ blanks, Text.isBlank l = true) ∧
      ∀ l ∈ rest.head?, Text.isBlank l = false := by
  refine ⟨below.takeWhile Text.isBlank, below.dropWhile Text.isBlank,
    List.takeWhile_append_dropWhile.symm, fun l hl => List.mem_takeWhile_imp hl, fun l hl => ?_⟩
  cases hrest : below.dropWhile Text.isBlank with
  | nil => simp [hrest] at hl
  | cons first more =>
      have hblank := List.head?_dropWhile_not Text.isBlank below
      rw [hrest] at hl hblank
      obtain rfl : first = l := by simpa using hl
      simpa using hblank

/-- Without code behind it, a marker is an error. -/
theorem codeMissing_or_exists_lead {kind : CodeKind} {line argument : Text}
    (h : Marks line kind.marker argument) (below : List Text) (n : Nat) (guide : Guide) :
    (argument = [] ∧ (run ⟨n, .body, .item, guide⟩ (line :: below)).bind finish =
      .error ⟨n + 1, .codeMissing kind⟩) ∨
    ∃ lead inline first more, line :: below = lead ++ more ∧ Lead kind.marker lead inline first ∧
      (inline = false → isBoundary (Text.trim first) = false) := by
  by_cases hargument : argument = []
  · subst hargument
    obtain ⟨blanks, rest, rfl, hblanks, hrest⟩ := exists_blanks below
    have hwait : ∀ l ∈ blanks, ∀ m, step ⟨m, .body, .codeMarker kind (n + 1), guide⟩ l =
        .ok ⟨m + 1, .body, .codeMarker kind (n + 1), guide⟩ :=
      fun l hl m => if_pos (hblanks l hl)
    have hrun : run ⟨n, .body, .item, guide⟩ (line :: (blanks ++ rest)) =
        run ⟨n + 1 + blanks.length, .body, .codeMarker kind (n + 1), guide⟩ rest := by
      rw [run_cons, step_code_below n guide h, Except.bind, run_append, run_waiting hwait]
      rfl
    cases rest with
    | nil =>
        rw [hrun]
        exact .inl ⟨rfl, rfl⟩
    | cons first more =>
        have hblank := hrest first rfl
        cases hboundary : isBoundary (Text.trim first) with
        | true =>
            have hstep : ∀ m, step ⟨m, .body, .codeMarker kind (n + 1), guide⟩ first =
                fail (n + 1) (.codeMissing kind) :=
              fun m => (if_neg (by simp [hblank])).trans (if_pos hboundary)
            rw [hrun, run_cons, hstep]
            exact .inl ⟨rfl, rfl⟩
        | false =>
            exact .inr ⟨line :: blanks ++ [first], false, first, more, by simp,
              .below h hblanks hblank, fun _ => hboundary⟩
  · exact .inr ⟨[line], true, argument, below, rfl, .inline h hargument, nofun⟩

end Reader

/-! ### Sources -/

/-- What is read before some lines and behind them. -/
theorem read_eq {content : Text} {front rest : List Text} {r : Reader}
    (hcontent : sourceLines content = front ++ rest) (hfront : Reader.start.run front = .ok r) :
    read content = (r.run rest).bind Reader.finish := by
  rw [read, hcontent, ofLines_append hfront]

/-- What becomes of code that begins with the line `first`, the last of those from its marker on,
and may go on with the lines below it: how far it goes, and what is read then. -/
inductive CodeOutcome (content : Text) (front lead : List Text) (kind : CodeKind) (inline : Bool)
    (first : Text) (more : List Text) (guide : Guide) : Prop
  /-- No brace is open where it ends, and none has been closed too many. -/
  | block {n : Nat} (far : Braces.Extends first more n)
      (depth : (Braces.ofText (Text.join ['\n'] (first :: more.take n))).depth = 0)
      (result : Reader.start.run (front ++ (lead ++ more.take n)) =
        .ok ⟨front.length + (lead.length + n), .body, .item,
          guide.addBlock (.code kind (Reader.codeOf inline (first :: more.take n)))⟩)
  /-- A brace has been closed too many. -/
  | overclosed {n : Nat} (far : Braces.Extends first more n)
      (depth : (Braces.ofText (Text.join ['\n'] (first :: more.take n))).depth < 0)
      (result : read content = .error ⟨front.length + lead.length, .unbalanced kind⟩)
  /-- It never ends. -/
  | endless (far : ∀ n, ¬ Braces.Extends first more n)
      (result : read content = .error ⟨front.length + lead.length, .unbalanced kind⟩)

/-- One of the three is the outcome of any code that the reader comes to. -/
theorem codeOutcome {content first : Text} {front lead more : List Text} {kind : CodeKind}
    {inline : Bool} {guide : Guide} (hcontent : sourceLines content = front ++ (lead ++ more))
    (hfront : Reader.start.run front = .ok ⟨front.length, .body, .item, guide⟩)
    (hlead : Lead kind.marker lead inline first)
    (hboundary : inline = false → isBoundary (Text.trim first) = false) :
    CodeOutcome content front lead kind inline first more guide := by
  have hfeeds : ∀ line ∈ lead ++ more, '\n' ∉ line := fun line hline =>
    not_mem_of_mem_sourceLines (hcontent ▸ List.mem_append_right _ hline)
  have hlines : ∀ line ∈ first :: more, '\n' ∉ line := by
    refine List.forall_mem_cons.2 ⟨fun hfeed => ?_, fun line hline =>
      hfeeds line (List.mem_append_right _ hline)⟩
    obtain ⟨line, hline, hmem⟩ := hlead.mem_of_mem hfeed
    exact hfeeds line (List.mem_append_left _ hline) hmem
  obtain ⟨k, hlength, hrun⟩ := Reader.exists_run_code hlead hboundary front.length guide
  rcases Braces.exists_extends_or first more with ⟨n, hextends⟩ | hnone
  · have hcode := Reader.run_code_extends (front.length + k) guide kind (front.length + lead.length)
      inline hlines hextends
    rcases Int.lt_or_eq_of_le hextends.canEnd.2 with hdepth | hdepth
    · refine .overclosed hextends hdepth ?_
      rw [if_pos hdepth] at hcode
      rw [read_eq hcontent hfront, hrun, ← List.take_append_drop n more, ← List.cons_append,
        Reader.run_append, hcode]
      rfl
    · refine .block hextends hdepth ?_
      rw [if_neg (by omega)] at hcode
      rw [Reader.run_append, hfront, Except.bind, hrun, hcode, hlength]
      congr 2
      omega
  · refine .endless (fun n hextends => hnone n hextends.le hextends.canEnd) ?_
    rw [read_eq hcontent hfront, hrun, Reader.run_code_inside _ _ _ _ _
      (Braces.staysOpen_of_not_canEnd hlines hnone)]
    rfl

/-- **How far code goes.** Counting braces line by line is going through the whole text. So the code
behind a marker goes on, from the line where it begins, for as few lines as leave one in no raw
string and in no brace, and is a block if no brace has been closed too many. If one has, or if there
are no such lines, its braces are not balanced, which is an error at the line where it begins.
Without code, the marker is an error. -/
theorem extent_of_code :
    (∀ lines : List Text, (∀ line ∈ lines, '\n' ∉ line) →
      lines.foldl Braces.addLine .start = Braces.ofText (Text.join ['\n'] lines)) ∧
    ∀ {content line argument : Text} {front below : List Text} {kind : CodeKind} {r : Reader},
      sourceLines content = front ++ line :: below → Reader.start.run front = .ok r →
      r.part = .body → r.pending = .item → Marks line kind.marker argument →
      (argument = [] ∧ read content = .error ⟨front.length + 1, .codeMissing kind⟩) ∨
      ∃ lead inline first more, line :: below = lead ++ more ∧ Lead kind.marker lead inline first ∧
        CodeOutcome content front lead kind inline first more r.guide := by
  refine ⟨fun lines hlines => Braces.after_eq_ofText hlines, ?_⟩
  intro content line argument front below kind r hcontent hfront hpart hpending hmarks
  obtain ⟨count, part, pending, guide⟩ := r
  subst hpart hpending
  obtain rfl : count = front.length := by
    obtain ⟨-, -, -, -, -, -, -, hcount⟩ :=
      Reader.run_reached (Reader.reached_nil 0 .preamble .empty) hfront
    simpa using hcount
  rcases Reader.codeMissing_or_exists_lead hmarks below front.length guide with
    ⟨hnil, hmissing⟩ | ⟨lead, inline, first, more, hsplit, hlead, hboundary⟩
  · exact .inl ⟨hnil, (read_eq hcontent hfront).trans hmissing⟩
  · rw [hsplit] at hcontent
    exact .inr ⟨lead, inline, first, more, hsplit, hlead,
      codeOutcome hcontent hfront hlead hboundary⟩

/-- A guide whose code holds a raw string on two lines, with braces in it, and one more brace in a
comment behind it, line by line. -/
def linesWithRawString : List Text :=
  ["fun main() \x7b".toList, "  @Code".toList, "  show(\"\"\"\x7b".toList,
    "  \"\x7d\x7d\" // \"\"\") // \x7b".toList, "\x7d".toList]

/-- The code is a block, with what is between the lines of the marker and of the end. -/
theorem extent_of_code_with_raw_string :
    linesWithRawString.foldl Braces.addLine .start =
      Braces.ofText (Text.join ['\n'] linesWithRawString) ∧
    ∃ lead inline first more n,
      linesWithRawString.drop 1 = lead ++ more ∧ Braces.Extends first more n ∧
      Reader.start.run (["fun main() \x7b".toList] ++ (lead ++ more.take n)) =
        .ok ⟨1 + (lead.length + n), .body, .item,
          empty.addBlock (.code .shown (Reader.codeOf inline (first :: more.take n)))⟩ := by
  obtain ⟨hfold, hcode⟩ := extent_of_code
  have hcontent : sourceLines (Text.join ['\n'] linesWithRawString) = linesWithRawString := by
    decide +kernel
  have hfront : Reader.start.run ["fun main() \x7b".toList] = .ok ⟨1, .body, .item, empty⟩ := rfl
  have hmarks : Marks "  @Code".toList CodeKind.shown.marker [] :=
    ⟨[], by decide +kernel, List.all_eq_true.1 (by decide), by simp, rfl⟩
  have hok : (read (Text.join ['\n'] linesWithRawString)).isOk = true := by
    rw [read, hcontent]
    decide +kernel
  refine ⟨hfold _ (by decide +kernel), ?_⟩
  rcases hcode hcontent hfront rfl rfl hmarks with
    ⟨-, herror⟩ | ⟨lead, inline, first, more, hsplit, -, houtcome⟩
  · rw [herror] at hok
    cases hok
  cases houtcome with
  | block far _ result => exact ⟨lead, inline, first, more, _, hsplit, far, result⟩
  | overclosed _ _ herror | endless _ herror =>
      rw [herror] at hok
      cases hok

end Guide

end Guidebook
