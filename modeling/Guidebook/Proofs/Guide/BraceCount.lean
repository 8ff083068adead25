import Guidebook.Guide.Braces
import Mathlib.Data.List.Infix

/-!
# Counting Through Lines

Braces are counted line by line, and from one line to the next only the count is kept, and whether a
raw string is open. This is the same as going through the whole text, the lines with line feeds
between them, where a line feed ends every literal and comment but a raw string.

For this, a line is compared with itself at any place in a text: what is left open behind it is the
same, whatever comes after the line feed, since nothing that is more than one character long goes on
over a line feed.

## Main results

* `LineEnds.literal`, `LineEnds.code`: what one character of a literal, and of code, leads to.
* `lineEnds`: what a line leaves open in a text is what the count of the line says.
* `foldl_addLine`: **counting line by line is going through the text**.
-/

namespace Guidebook

/-! ### Going through a text -/

/-- What a character of a text of code stands in. -/
inductive CodeZone where
  | code
  /-- A string or character literal; whether the character before it was an escaping backslash. -/
  | literal (delimiter : Char) (escaped : Bool)
  /-- A raw string. -/
  | raw
  /-- A line comment. -/
  | comment
  deriving DecidableEq, Repr

namespace CodeZone

/-- Where a text of code ends that begins in the given zone, and how many braces are open there. -/
def goThrough : CodeZone → Int → Text → CodeZone × Int
  | zone, depth, [] => (zone, depth)
  | .raw, depth, '"' :: '"' :: '"' :: rest => goThrough .code depth rest
  | .raw, depth, _ :: rest => goThrough .raw depth rest
  | .comment, depth, c :: rest => goThrough (if c = '\n' then .code else .comment) depth rest
  | .literal delimiter escaped, depth, c :: rest =>
    if c = '\n' then goThrough .code depth rest
    else if escaped then goThrough (.literal delimiter false) depth rest
    else if c = '\\' then goThrough (.literal delimiter true) depth rest
    else if c = delimiter then goThrough .code depth rest
    else goThrough (.literal delimiter false) depth rest
  | .code, depth, '"' :: '"' :: '"' :: rest => goThrough .raw depth rest
  | .code, depth, '/' :: '/' :: rest => goThrough .comment depth rest
  | .code, depth, c :: rest =>
    if c = '"' ∨ c = '\'' then goThrough (.literal c false) depth rest
    else if c = '\x7b' then goThrough .code (depth + 1) rest
    else if c = '\x7d' then goThrough .code (depth - 1) rest
    else goThrough .code depth rest

/-- The zone in which a line goes on. -/
def ofContext : CodeContext → CodeZone
  | .code => .code
  | .literal delimiter escaped => .literal delimiter escaped
  | .raw => .raw

/-- The zone in which a line begins. -/
def atLine (braces : Braces) : CodeZone :=
  if braces.inRaw then .raw else .code

end CodeZone

namespace Braces

/-- The count where a text of code ends. -/
def atEnd (state : CodeZone × Int) : Braces :=
  ⟨state.2, state.1 = .raw⟩

/-- The count behind a whole text of code. -/
def ofText (t : Text) : Braces :=
  atEnd (CodeZone.goThrough .code 0 t)

end Braces

open CodeZone Braces

/-- A text in front of another that goes on with none of the characters of `front` begins as it does
without what follows it. -/
theorem exists_append_of_append_eq {t tail rest : Text} (front : Text)
    (h : t ++ tail = front ++ rest) (htail : ∀ c ∈ tail.head?, c ∉ front) :
    ∃ more, t = front ++ more := by
  obtain ⟨more, rfl, rfl⟩ | ⟨more, rfl, -⟩ := List.append_eq_append_iff.1 h
  · cases more with
    | nil => exact ⟨[], by simp⟩
    | cons c more => exact absurd (by simp) (htail c rfl)
  · exact ⟨more, rfl⟩

/-- Three quotes that begin in a line end in it, if what follows the line begins with none. -/
theorem ne_quotes_of_append {c : Char} {rest tail : Text}
    (h : ∀ more, c = '"' → rest = '"' :: '"' :: more → False) (htail : tail.head? ≠ some '"') :
    ∀ more, c = '"' → rest ++ tail = '"' :: '"' :: more → False := by
  intro more hc hmore
  have hfront : ∀ d ∈ tail.head?, d ∉ ['"', '"'] := by
    rintro d hd hmem
    obtain rfl : d = '"' := by simpa using hmem
    exact htail hd
  obtain ⟨more, rfl⟩ := exists_append_of_append_eq ['"', '"'] hmore hfront
  exact h more hc rfl

/-- Two slashes that begin in a line end in it, if what follows the line begins with none. -/
theorem ne_slashes_of_append {c : Char} {rest tail : Text}
    (h : ∀ more, c = '/' → rest = '/' :: more → False) (htail : tail.head? ≠ some '/') :
    ∀ more, c = '/' → rest ++ tail = '/' :: more → False := by
  intro more hc hmore
  have hfront : ∀ d ∈ tail.head?, d ∉ ['/'] := by
    rintro d hd hmem
    obtain rfl := List.mem_singleton.1 hmem
    exact htail hd
  obtain ⟨more, rfl⟩ := exists_append_of_append_eq ['/'] hmore hfront
  exact h more hc rfl

/-! ### One character -/

namespace CodeContext

/-- What follows a character of code in its line. -/
def inCode (c : Char) : CodeContext :=
  if c = '"' ∨ c = '\'' then .literal c false else .code

/-- What follows a character of a literal in its line. -/
def inLiteral (delimiter : Char) (escaped : Bool) (c : Char) : CodeContext :=
  if escaped then .literal delimiter false
  else if c = '\\' then .literal delimiter true
  else if c = delimiter then .code
  else .literal delimiter false

end CodeContext

/-- How many braces are open behind a character of code. -/
def Lexical.behindBrace (depth : Int) (c : Char) : Int :=
  if c = '\x7b' then depth + 1 else if c = '\x7d' then depth - 1 else depth

open CodeContext (inCode inLiteral)
open Lexical (behindBrace)

/-- A quote that opens a literal leaves the depth as it is. -/
theorem behindBrace_of_delimiter {c : Char} (h : c = '"' ∨ c = '\'') (depth : Int) :
    behindBrace depth c = depth := by
  rcases h with rfl | rfl <;> rfl

section Steps

variable {c : Char} {rest : Text} (depth : Int)

/-- The count of a line takes one character of a literal at a time. -/
theorem scan_literal (delimiter : Char) (escaped : Bool) (c : Char) (rest : Text) :
    scan (.literal delimiter escaped) depth (c :: rest) =
      scan (inLiteral delimiter escaped c) depth rest := by
  cases escaped with
  | true => rw [scan]; rfl
  | false =>
      rw [scan, inLiteral, if_neg Bool.false_ne_true]
      split_ifs <;> rfl

/-- The way through a whole text takes one character of a literal at a time, but for a line feed,
which ends the literal. -/
theorem goThrough_literal (delimiter : Char) (escaped : Bool) (hc : c ≠ '\n') (rest : Text) :
    goThrough (.literal delimiter escaped) depth (c :: rest) =
      goThrough (ofContext (inLiteral delimiter escaped c)) depth rest := by
  rw [goThrough, if_neg hc, inLiteral]
  split_ifs <;> rfl

/-- In code, three quotes and two slashes are more than their first characters. -/
theorem scan_code (hquotes : ∀ more, c = '"' → rest = '"' :: '"' :: more → False)
    (hslashes : ∀ more, c = '/' → rest = '/' :: more → False) :
    scan .code depth (c :: rest) = scan (inCode c) (behindBrace depth c) rest := by
  rw [scan]
  · rw [inCode]
    split_ifs with hdelimiter hopen hclose
    · rw [behindBrace_of_delimiter hdelimiter]
    · rw [behindBrace, if_pos hopen]
    · rw [behindBrace, if_neg hopen, if_pos hclose]
    · rw [behindBrace, if_neg hopen, if_neg hclose]
  · exact hquotes
  · exact hslashes

/-- On the way through a text a character of code counts as it does in its line. -/
theorem goThrough_code (hquotes : ∀ more, c = '"' → rest = '"' :: '"' :: more → False)
    (hslashes : ∀ more, c = '/' → rest = '/' :: more → False) :
    goThrough .code depth (c :: rest) =
      goThrough (ofContext (inCode c)) (behindBrace depth c) rest := by
  rw [goThrough]
  · rw [inCode]
    split_ifs with hdelimiter hopen hclose
    · rw [behindBrace_of_delimiter hdelimiter]; rfl
    · rw [behindBrace, if_pos hopen]; rfl
    · rw [behindBrace, if_neg hopen, if_pos hclose]; rfl
    · rw [behindBrace, if_neg hopen, if_neg hclose]; rfl
  · exact hquotes
  · exact hslashes

/-- Nothing but three quotes matters in a raw string. -/
theorem goThrough_raw (hquotes : ∀ more, c = '"' → rest = '"' :: '"' :: more → False) :
    goThrough .raw depth (c :: rest) = goThrough .raw depth rest := by
  rw [goThrough]
  exact hquotes

/-- A comment lasts until the line feed. -/
theorem goThrough_comment_cons (c : Char) (rest : Text) :
    goThrough .comment depth (c :: rest) =
      goThrough (if c = '\n' then .code else .comment) depth rest := by
  rw [goThrough]

/-- What is left of the line in a comment changes nothing. -/
theorem goThrough_comment (hrest : '\n' ∉ rest) (tail : Text) :
    goThrough .comment depth (rest ++ tail) = goThrough .comment depth tail := by
  induction rest with
  | nil => rfl
  | cons c rest ih =>
      rw [List.mem_cons, not_or] at hrest
      rw [List.cons_append, goThrough_comment_cons, if_neg (Ne.symm hrest.1), ih hrest.2]

/-- Every literal and comment but a raw string ends with its line. -/
theorem goThrough_newline (zone : CodeZone) (rest : Text) :
    goThrough zone depth ('\n' :: rest) =
      goThrough (if zone = .raw then .raw else .code) depth rest := by
  cases zone <;> rfl

end Steps

/-- **A line in a text**: behind it, one is in a raw string if the count says so, and as many braces
are open as it says, whatever follows on the next line. -/
def LineEnds (context : CodeContext) (depth : Int) (line : Text) : Prop :=
  ∃ zone, (zone = .raw ↔ (scan context depth line).inRaw = true) ∧
    ∀ tail : Text, (∀ c ∈ tail.head?, c = '\n') →
      goThrough (ofContext context) depth (line ++ tail) =
        goThrough zone (scan context depth line).depth tail

namespace LineEnds

variable {context next : CodeContext} {depth more : Int} {c : Char} {rest : Text}

/-- If the line and the text go over its first characters `front` alike, and agree on the rest of
it, they agree on the whole line. -/
theorem of_step (h : LineEnds next more rest) (front : Text)
    (hscan : scan context depth (front ++ rest) = scan next more rest)
    (hgo : ∀ tail : Text, (∀ c ∈ tail.head?, c = '\n') →
      goThrough (ofContext context) depth (front ++ (rest ++ tail)) =
        goThrough (ofContext next) more (rest ++ tail)) :
    LineEnds context depth (front ++ rest) := by
  obtain ⟨zone, hraw, hrest⟩ := h
  rw [LineEnds, hscan]
  refine ⟨zone, hraw, fun tail htail => ?_⟩
  rw [List.append_assoc, hgo tail htail, hrest tail htail]

/-- Three quotes open a raw string, in the line and in the text. -/
theorem open_raw (h : LineEnds .raw depth rest) :
    LineEnds .code depth ('"' :: '"' :: '"' :: rest) :=
  h.of_step ['"', '"', '"'] rfl fun _ _ => rfl

/-- Three quotes close a raw string, in the line and in the text. -/
theorem close_raw (h : LineEnds .code depth rest) :
    LineEnds .raw depth ('"' :: '"' :: '"' :: rest) :=
  h.of_step ['"', '"', '"'] rfl fun _ _ => rfl

/-- The line and the text agree on a character of a raw string. -/
theorem raw (h : LineEnds .raw depth rest)
    (hquotes : ∀ more, c = '"' → rest = '"' :: '"' :: more → False) :
    LineEnds .raw depth (c :: rest) := by
  refine h.of_step [c] ?_ fun tail htail => ?_
  · rw [List.singleton_append, scan]
    exact hquotes
  · have hmore := ne_quotes_of_append hquotes fun hhead => absurd (htail _ hhead) (by decide)
    exact goThrough_raw depth hmore

/-- The line and the text agree on a character of a literal. -/
theorem literal {delimiter : Char} {escaped : Bool}
    (h : LineEnds (inLiteral delimiter escaped c) depth rest) (hc : c ≠ '\n') :
    LineEnds (.literal delimiter escaped) depth (c :: rest) :=
  h.of_step [c] (scan_literal depth delimiter escaped c rest) fun tail _ =>
    goThrough_literal depth delimiter escaped hc (rest ++ tail)

/-- The line and the text agree on a character of code. -/
theorem code (h : LineEnds (inCode c) (behindBrace depth c) rest)
    (hquotes : ∀ more, c = '"' → rest = '"' :: '"' :: more → False)
    (hslashes : ∀ more, c = '/' → rest = '/' :: more → False) :
    LineEnds .code depth (c :: rest) := by
  refine h.of_step [c] (scan_code depth hquotes hslashes) fun tail htail => ?_
  have hmore := ne_quotes_of_append hquotes fun hhead => absurd (htail _ hhead) (by decide)
  have hnone := ne_slashes_of_append hslashes fun hhead => absurd (htail _ hhead) (by decide)
  exact goThrough_code depth hmore hnone

/-- The count of a line is done where a comment begins. -/
theorem comment (hrest : '\n' ∉ rest) : LineEnds .code depth ('/' :: '/' :: rest) := by
  have hscan : scan .code depth ('/' :: '/' :: rest) = ⟨depth, false⟩ := rfl
  rw [LineEnds, hscan]
  refine ⟨.comment, by simp, fun tail _ => ?_⟩
  rw [← goThrough_comment depth hrest tail]
  rfl

end LineEnds

/-- Every line is counted as it is in a text, wherever it begins. -/
theorem lineEnds (context : CodeContext) (depth : Int) {line : Text} (hline : '\n' ∉ line) :
    LineEnds context depth line := by
  -- Both go on with the same characters, but for a comment, where the count of the line is done.
  induction context, depth, line using scan.induct with
  | case1 context depth =>
      refine ⟨ofContext context, ?_, fun tail _ => by rw [scan]; rfl⟩
      rw [scan]
      cases context <;> simp [ofContext]
  | case2 depth rest ih =>
      simp only [List.mem_cons, not_or] at hline
      exact (ih hline.2.2.2).close_raw
  | case3 depth c rest hquotes ih =>
      exact (ih (List.not_mem_of_not_mem_cons hline)).raw hquotes
  | case4 delimiter depth c rest ih =>
      refine .literal ?_ (List.ne_of_not_mem_cons hline).symm
      simpa [inLiteral] using ih (List.not_mem_of_not_mem_cons hline)
  | case5 delimiter depth rest ih =>
      refine .literal ?_ (by decide)
      simpa [inLiteral] using ih (List.not_mem_of_not_mem_cons hline)
  | case6 depth c rest hslash ih =>
      refine .literal ?_ (List.ne_of_not_mem_cons hline).symm
      simpa [inLiteral, hslash] using ih (List.not_mem_of_not_mem_cons hline)
  | case7 delimiter depth c rest hslash hclose ih =>
      refine .literal ?_ (List.ne_of_not_mem_cons hline).symm
      simpa [inLiteral, hslash, hclose] using ih (List.not_mem_of_not_mem_cons hline)
  | case8 depth rest ih =>
      simp only [List.mem_cons, not_or] at hline
      exact (ih hline.2.2.2).open_raw
  | case9 depth rest =>
      simp only [List.mem_cons, not_or] at hline
      exact .comment hline.2.2
  | case10 depth c rest hquotes hslashes hdelimiter ih =>
      refine .code ?_ hquotes hslashes
      simpa [inCode, hdelimiter, behindBrace_of_delimiter] using
        ih (List.not_mem_of_not_mem_cons hline)
  | case11 depth rest hquotes hslashes hdelimiter ih =>
      refine .code ?_ hquotes hslashes
      simpa [inCode, behindBrace] using ih (List.not_mem_of_not_mem_cons hline)
  | case12 depth rest hquotes hslashes hdelimiter hopen ih =>
      refine .code ?_ hquotes hslashes
      simpa [inCode, behindBrace] using ih (List.not_mem_of_not_mem_cons hline)
  | case13 depth c rest hquotes hslashes hdelimiter hopen hclose ih =>
      refine .code ?_ hquotes hslashes
      simpa [inCode, hdelimiter, behindBrace, hopen, hclose] using
        ih (List.not_mem_of_not_mem_cons hline)

/-- With the count in front of a line, the way through the text comes to the count behind it. -/
theorem goThrough_atLine (braces : Braces) {line : Text} (hline : '\n' ∉ line) :
    ∃ zone, (zone = .raw ↔ (braces.addLine line).inRaw = true) ∧
      ∀ tail : Text, (∀ c ∈ tail.head?, c = '\n') →
        goThrough (atLine braces) braces.depth (line ++ tail) =
          goThrough zone (braces.addLine line).depth tail := by
  have hends := lineEnds (if braces.inRaw then .raw else .code) braces.depth hline
  have hcontext : ofContext (if braces.inRaw then .raw else .code) = atLine braces := by
    rw [atLine]
    split <;> rfl
  rw [LineEnds, hcontext] at hends
  exact hends

/-- **Counting line by line** is going through the lines with line feeds between them. -/
theorem foldl_addLine {lines : List Text} (hlines : ∀ line ∈ lines, '\n' ∉ line) (braces : Braces) :
    lines.foldl addLine braces =
      atEnd (goThrough (atLine braces) braces.depth (Text.join ['\n'] lines)) := by
  induction lines generalizing braces with
  | nil =>
      obtain ⟨depth, inRaw⟩ := braces
      cases inRaw <;> rfl
  | cons line lines ih =>
      obtain ⟨hline, hlines⟩ := List.forall_mem_cons.1 hlines
      obtain ⟨zone, hraw, hgo⟩ := goThrough_atLine braces hline
      rw [List.foldl_cons]
      -- Only behind a line that is not the last is there a line feed, which ends its literals.
      cases lines with
      | nil =>
          have hend := hgo [] (by simp)
          rw [List.append_nil] at hend
          have hflag : decide (zone = .raw) = (braces.addLine line).inRaw :=
            Bool.eq_iff_iff.2 (decide_eq_true_iff.trans hraw)
          rw [List.foldl_nil, Text.join, hend]
          exact congrArg (Braces.mk _) hflag.symm
      | cons next lines =>
          have hzone : (if zone = .raw then .raw else .code) = atLine (braces.addLine line) := by
            simp only [hraw, atLine]
          rw [ih hlines, Text.join, List.append_assoc, List.singleton_append, hgo _ (by simp),
            goThrough_newline, hzone]

end Guidebook
