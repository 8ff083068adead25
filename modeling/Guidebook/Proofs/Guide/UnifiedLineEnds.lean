import Guidebook.Guide.Publication
import Guidebook.Proofs.Guide.BraceCount
import Guidebook.Proofs.Guide.SourceLines
import Guidebook.Proofs.Text.LineEnds

/-!
# Line Ends of Sources

The lines of a source are cut at line feeds, and then a carriage return is taken off the end of
each. So as long as every carriage return stands at the end of a line, the lines are those of the
source with its line ends unified, and what is read is the same, error and line number included.

A source may lack its last line feed. With it, one more carriage return is taken off the last
line, if there are two of them. No reader can tell: white space at the end of the last line is
nothing to an item, a text that is not closed there is never closed, and code that ends there is
not followed by the end of `fun main`.

## Main results

* `Guide.sourceLines_unifyLineEnds`: **the lines of a source** with its line ends unified.
* `Guide.Reader.finish_step_return`: a carriage return at the end of the last line.
* `Guide.read_concat_feed`: a line feed at the end of a source.
* `Guide.publish_unified`: line ends never change what a guide means.
-/

namespace Guidebook

/-! ### A carriage return at the end of a line -/

namespace Text

variable {piece : Text} {c : Char}

/-- A character behind a text completes no piece that does not hold it. -/
theorem infix_concat_of_not_mem (hpiece : piece ≠ []) (hc : c ∉ piece) (t : Text) :
    piece <:+: t ++ [c] ↔ piece <:+: t := by
  rw [List.infix_concat_iff]
  refine or_iff_right fun hsuffix => ?_
  obtain ⟨front, hfront⟩ := hsuffix
  have hlast := congrArg List.getLast? hfront
  rw [List.getLast?_concat, List.getLast?_append_of_ne_nil _ hpiece] at hlast
  exact hc (List.mem_of_getLast? hlast)

/-- A character behind a text does not make it have a piece that does not hold the character. -/
theorem has_concat (hpiece : piece ≠ []) (hc : c ∉ piece) (t : Text) :
    has piece (t ++ [c]) = has piece t := by
  rw [Bool.eq_iff_iff, has_iff, has_iff, infix_concat_of_not_mem hpiece hc]

/-- A character behind a text stays behind a piece that is found, if the piece does not hold it. -/
theorem cut_concat (hpiece : piece ≠ []) (hc : c ∉ piece) (t : Text) :
    cut piece (t ++ [c]) = (cut piece t).map fun (before, after) => (before, after ++ [c]) := by
  cases hcut : cut piece t with
  | none =>
      rw [cut_eq_none_iff, ← infix_concat_of_not_mem hpiece hc, ← cut_eq_none_iff] at hcut
      exact hcut
  | some pieces =>
      obtain ⟨heq, hfirst⟩ := (cut_eq_some_iff hpiece).1 hcut
      exact (cut_eq_some_iff hpiece).2 ⟨by rw [heq, List.append_assoc], hfirst⟩

/-- A carriage return at the end of a text is trimmed off. -/
theorem trim_concat_return (t : Text) : trim (t ++ ['\r']) = trim t :=
  trim_append_right (by decide) t

/-- A text with a carriage return at its end is blank if it is without. -/
theorem isBlank_concat_return (t : Text) : isBlank (t ++ ['\r']) = isBlank t := by
  rw [isBlank_append, show isBlank ['\r'] = true by decide, Bool.and_true]

/-! ### A line feed at the end of a text -/

/-- A carriage return at the end is taken off whatever the line begins with. -/
theorem dropCarriageReturn_cons {line : Text} (hne : line ≠ []) (c : Char) :
    dropCarriageReturn (c :: line) = c :: dropCarriageReturn line := by
  rw [dropCarriageReturn, dropCarriageReturn, List.getLast?_cons_of_ne_nil hne,
    List.dropLast_cons_of_ne_nil hne]
  split <;> rfl

/-- **A last line feed**: with it, one more carriage return is taken off the last line. -/
theorem exists_lines_concat_feed {t : Text} (hne : t ≠ []) (hend : t.getLast? ≠ some '\n') :
    ∃ front last, last ≠ [] ∧ lines t = front ++ [last] ∧
      lines (t ++ ['\n']) = front ++ [dropCarriageReturn last] := by
  fun_induction lines t with
  | case1 => exact absurd rfl hne
  | case2 rest ih | case3 rest ih =>
      have hrest : rest ≠ [] := by
        rintro rfl
        exact hend rfl
      simp only [List.getLast?_cons_cons, List.getLast?_cons_of_ne_nil hrest] at hend
      obtain ⟨front, last, hlast, hlines, hfeed⟩ := ih hrest hend
      exact ⟨[] :: front, last, hlast, congrArg ([] :: ·) hlines, congrArg ([] :: ·) hfeed⟩
  | case4 c rest hfeed hpair hrest ih =>
      obtain rfl := lines_eq_nil_iff.1 hrest
      refine ⟨[], [c], List.cons_ne_nil c [], rfl, ?_⟩
      by_cases hreturn : c = '\r'
      · subst hreturn
        rfl
      · have hline : IsLine [c] := ⟨by simpa using Ne.symm hfeed, by simpa using hreturn⟩
        rw [dropCarriageReturn_eq_self hline]
        exact lines_append_feed hline []
  | case5 c rest hfeed hpair line more hrest ih =>
      have hbehind : rest ≠ [] := by
        rintro rfl
        cases hrest
      have hhead : c = '\r' → (rest ++ ['\n']).head? ≠ some '\n' := by
        rintro rfl
        rw [List.head?_append_of_ne_nil _ hbehind]
        intro hhead
        obtain ⟨tail, rfl⟩ := List.head?_eq_some_iff.1 hhead
        exact hpair tail rfl rfl
      rw [List.getLast?_cons_of_ne_nil hbehind] at hend
      obtain ⟨front, last, hlast, hlines, hconcat⟩ := ih hbehind hend
      rw [hlines] at hrest
      cases front with
      | nil =>
          obtain ⟨rfl, rfl⟩ := List.cons.inj hrest
          refine ⟨[], c :: last, List.cons_ne_nil c last, rfl, ?_⟩
          rw [dropCarriageReturn_cons hlast]
          exact lines_cons hfeed hhead hconcat
      | cons first front =>
          obtain ⟨rfl, rfl⟩ := List.cons.inj hrest
          exact ⟨(c :: first) :: front, last, hlast, rfl, lines_cons hfeed hhead hconcat⟩

end Text

namespace Braces

open CodeContext (inCode)
open Lexical (behindBrace)

/-- A carriage return opens and closes nothing. -/
theorem scan_return (context : CodeContext) (depth : Int) :
    scan context depth ['\r'] = ⟨depth, context = .raw⟩ := by
  cases context with
  | code | raw => simp [scan]
  | literal delimiter escaped =>
      cases escaped with
      | true => simp [scan]
      | false =>
          rw [scan, if_neg (by decide)]
          split <;> simp [scan]

/-- Behind a character of code, a carriage return at the end of the line makes no difference if it
makes none to the rest. -/
theorem scan_code_concat_return {depth : Int} {c : Char} {rest : Text}
    (hquotes : ∀ more, c = '"' → rest = '"' :: '"' :: more → False)
    (hslashes : ∀ more, c = '/' → rest = '/' :: more → False)
    (h : scan (inCode c) (behindBrace depth c) (rest ++ ['\r']) =
      scan (inCode c) (behindBrace depth c) rest) :
    scan .code depth (c :: rest ++ ['\r']) = scan .code depth (c :: rest) := by
  rw [List.cons_append, scan_code depth hquotes hslashes,
    scan_code depth (ne_quotes_of_append hquotes (by decide))
      (ne_slashes_of_append hslashes (by decide)), h]

/-- A carriage return at the end of a line opens and closes nothing. -/
theorem scan_concat_return (context : CodeContext) (depth : Int) (line : Text) :
    scan context depth (line ++ ['\r']) = scan context depth line := by
  induction context, depth, line using scan.induct with
  | case1 context depth =>
      rw [List.nil_append, scan_return, scan]
  | case2 depth rest ih | case8 depth rest ih =>
      simp only [List.cons_append, scan]
      exact ih
  | case3 depth c rest hquotes ih =>
      rw [List.cons_append, scan, scan, ih]
      · exact hquotes
      · exact ne_quotes_of_append hquotes (by decide)
  | case4 delimiter depth c rest ih =>
      rw [List.cons_append, scan, scan, ih]
  | case5 delimiter depth rest ih =>
      rw [List.cons_append, scan, scan, if_pos rfl, if_pos rfl, ih]
  | case6 depth c rest hslash ih =>
      rw [List.cons_append, scan, scan, if_neg hslash, if_pos rfl, if_neg hslash, if_pos rfl, ih]
  | case7 delimiter depth c rest hslash hclose ih =>
      rw [List.cons_append, scan, scan, if_neg hslash, if_neg hclose, if_neg hslash, if_neg hclose,
        ih]
  | case9 depth rest =>
      rw [List.cons_append, List.cons_append, scan, scan]
  | case10 depth c rest hquotes hslashes hdelimiter ih =>
      refine scan_code_concat_return hquotes hslashes ?_
      simpa [inCode, hdelimiter, behindBrace_of_delimiter] using ih
  | case11 depth rest hquotes hslashes hdelimiter ih =>
      refine scan_code_concat_return hquotes hslashes ?_
      simpa [inCode, behindBrace] using ih
  | case12 depth rest hquotes hslashes hdelimiter hopen ih =>
      refine scan_code_concat_return hquotes hslashes ?_
      simpa [inCode, behindBrace] using ih
  | case13 depth c rest hquotes hslashes hdelimiter hopen hclose ih =>
      refine scan_code_concat_return hquotes hslashes ?_
      simpa [inCode, hdelimiter, behindBrace, hopen, hclose] using ih

/-- The count behind a line does not depend on a carriage return at its end. -/
theorem addLine_concat_return (braces : Braces) (line : Text) :
    braces.addLine (line ++ ['\r']) = braces.addLine line :=
  scan_concat_return _ _ line

end Braces

namespace Guide

/-! ### The last line -/

namespace Reader

/-- Whether code goes on behind its last line is not told by a carriage return at its end, and if it
does not, the end of `fun main` is missing. -/
theorem finish_codeLine_return (n : Nat) (pending : Pending) (guide : Guide) (kind : CodeKind)
    (opened : Nat) (inline : Bool) (braces : Braces) (block : List Text) (line : Text) :
    (codeLine ⟨n, .body, pending, guide⟩ kind opened inline braces block (line ++ ['\r'])).bind
        finish =
      (codeLine ⟨n, .body, pending, guide⟩ kind opened inline braces block line).bind finish := by
  simp only [codeLine, Braces.addLine_concat_return]
  split
  · rfl
  · split <;> rfl

/-- **A carriage return at the end of the last line** makes no difference. -/
theorem finish_step_return {before n : Nat} {part : Part} {lines : List Text} {pending : Pending}
    (h : Partial before part lines pending) (guide : Guide) (line : Text) :
    (step ⟨n, part, pending, guide⟩ (line ++ ['\r'])).bind finish =
      (step ⟨n, part, pending, guide⟩ line).bind finish := by
  have hquotes : Text.cut textQuotes (line ++ ['\r']) =
      (Text.cut textQuotes line).map fun (inside, trailer) => (inside, trailer ++ ['\r']) :=
    Text.cut_concat (by decide) (by decide) line
  cases h with
  | item => simp only [step, Text.trim_concat_return]
  | comment => simp only [step, Text.has_concat (show "*/".toList ≠ [] by decide)
      (show '\r' ∉ "*/".toList by decide)]
  | textMarker => simp only [step, Text.trim_concat_return, Text.isBlank_concat_return]
  | text =>
      simp only [step, textLine, hquotes]
      cases Text.cut textQuotes line with
      | none => rfl
      | some pieces => simp only [Option.map_some, checkTrailer, Text.trim_concat_return]
  | codeMarker =>
      simp only [step, Text.trim_concat_return, Text.isBlank_concat_return]
      split
      · rfl
      · split
        · rfl
        · exact finish_codeLine_return n _ guide _ _ _ _ _ line
  | code => exact finish_codeLine_return n _ guide _ _ _ _ _ line

end Reader

/-- The last line without a carriage return at its end. -/
theorem ofLines_concat_dropCarriageReturn (front : List Text) (line : Text) :
    ofLines (front ++ [Text.dropCarriageReturn line]) = ofLines (front ++ [line]) := by
  rw [Text.dropCarriageReturn]
  split
  · next hlast =>
    obtain ⟨text, rfl⟩ : ∃ text, line = text ++ ['\r'] :=
      ⟨line.dropLast, (List.dropLast_append_getLast? '\r' hlast).symm⟩
    rw [List.dropLast_concat]
    cases hfront : Reader.start.run front with
    | error e => simp [ofLines, Reader.run_append, hfront, Except.bind, bind]
    | ok r =>
        obtain ⟨done, begun, -, -, -, hpartial, -, -⟩ :=
          Reader.run_reached (Reader.reached_nil 0 .preamble .empty) hfront
        rw [ofLines_append hfront, ofLines_append hfront, Reader.run_singleton,
          Reader.run_singleton]
        exact (Reader.finish_step_return hpartial r.guide text).symm
  · rfl

/-! ### Lines of sources -/

/-- Each carriage return of a text stands before a line feed or at the end of the text. -/
def ReturnsAtEnds (t : Text) : Prop :=
  ∀ rest, '\r' :: rest <:+ t → rest = [] ∨ rest.head? = some '\n'

/-- Whether carriage returns stand at the ends of lines can be told from the ends of the text, of
which there are finitely many. -/
theorem returnsAtEnds_iff {t : Text} :
    ReturnsAtEnds t ↔
      ∀ tail ∈ t.tails, tail.head? = some '\r' → tail.tail = [] ∨ tail.tail.head? = some '\n' := by
  simp only [List.mem_tails]
  constructor
  · intro h tail htail hhead
    obtain ⟨rest, rfl⟩ := List.head?_eq_some_iff.1 hhead
    exact h rest htail
  · exact fun h rest hrest => h _ hrest rfl

instance (t : Text) : Decidable (ReturnsAtEnds t) :=
  decidable_of_iff' _ returnsAtEnds_iff

/-- The end of such a text is such a text. -/
theorem ReturnsAtEnds.of_suffix {t tail : Text} (h : ReturnsAtEnds t) (htail : tail <:+ t) :
    ReturnsAtEnds tail :=
  fun rest hrest => h rest (hrest.trans htail)

/-- A character that ends no line stands in front of the first line. -/
theorem sourceLines_cons {c : Char} (hfeed : c ≠ '\n') (hreturn : c ≠ '\r') (rest : Text) :
    sourceLines (c :: rest) =
      match sourceLines rest with
      | [] => [[c]]
      | line :: more => (c :: line) :: more := by
  cases hrest : Text.lines rest with
  | nil =>
      obtain rfl := Text.lines_eq_nil_iff.1 hrest
      have hline : Text.lines [c] = [[c]] :=
        Text.lines_of_not_mem (List.cons_ne_nil c []) (by simpa using Ne.symm hfeed)
      rw [sourceLines, hline, List.map_singleton, Text.dropCarriageReturn, if_neg (by simpa)]
      rfl
  | cons line more =>
      have hlines := Text.lines_cons hfeed (fun heq => absurd heq hreturn) hrest
      have hline : Text.dropCarriageReturn ([c] ++ line) = [c] ++ Text.dropCarriageReturn line :=
        Text.dropCarriageReturn_append (by simpa using Ne.symm hreturn) line
      rw [sourceLines, sourceLines, hlines, hrest, List.map_cons, List.map_cons]
      exact congrArg (· :: _) hline

/-- **The lines of a source** with its line ends unified, if its carriage returns end lines. -/
theorem sourceLines_unifyLineEnds {content : Text} (h : ReturnsAtEnds content) :
    sourceLines (Text.unifyLineEnds content) = sourceLines content := by
  rw [Text.unifyLineEnds_eq]
  fun_induction Text.withFeeds content with
  | case1 => rfl
  | case2 rest ih =>
      exact congrArg ([] :: ·) (ih (h.of_suffix ⟨['\r', '\n'], rfl⟩))
  | case3 rest hpair ih =>
      obtain rfl | hhead := h rest List.suffix_rfl
      · rfl
      · obtain ⟨tail, rfl⟩ := List.head?_eq_some_iff.1 hhead
        exact absurd rfl (hpair tail)
  | case4 c rest hpair hreturn ih =>
      have hrest := ih (h.of_suffix (List.suffix_cons c rest))
      by_cases hfeed : c = '\n'
      · subst hfeed
        exact congrArg ([] :: ·) hrest
      · rw [sourceLines_cons hfeed hreturn, sourceLines_cons hfeed hreturn, hrest]

/-- **A line feed at the end of a source** makes no difference. -/
theorem read_concat_feed {content : Text} (hend : content.getLast? ≠ some '\n') :
    read (content ++ ['\n']) = read content := by
  by_cases hne : content = []
  · subst hne
    rfl
  · obtain ⟨front, last, -, hlines, hfeed⟩ := Text.exists_lines_concat_feed hne hend
    simp only [read, sourceLines, hlines, hfeed, List.map_append, List.map_singleton]
    exact ofLines_concat_dropCarriageReturn _ _

/-- **Line ends never change what a guide means.** Unifying line ends is one pass over the text,
which leaves no carriage return and nothing to unify; of lines with any line ends it leaves the
lines, if no two line ends make a pair between lines. What a source is turned into, or how it is
rejected, is the same with its line ends unified, if its carriage returns end lines, and with a
last line feed. -/
theorem publish_unified (package : Text) (link : Option PublicLink) :
    (∀ t, Text.unifyLineEnds t = Text.withFeeds t ∧ '\r' ∉ Text.unifyLineEnds t ∧
      Text.unifyLineEnds (Text.unifyLineEnds t) = Text.unifyLineEnds t) ∧
    (∀ block : List (Text × Text.LineEnd), (∀ line ∈ block, '\n' ∉ line.1 ∧ '\r' ∉ line.1) →
      block.IsChain Text.KeptApart →
        Text.unifyLineEnds (Text.ended block) = Text.unlines (block.map Prod.fst)) ∧
    (∀ content, ReturnsAtEnds content →
      publish (Text.unifyLineEnds content) package link = publish content package link) ∧
    ∀ content : Text, content.getLast? ≠ some '\n' →
      publish (content ++ ['\n']) package link = publish content package link := by
  refine ⟨fun t => ⟨?_, ?_, ?_⟩, fun block hlines hapart => ?_, fun content h => ?_,
    fun content hend => ?_⟩
  · exact Text.unifyLineEnds_eq t
  · exact Text.not_mem_unifyLineEnds t
  · exact Text.unifyLineEnds_unifyLineEnds t
  · exact Text.unifyLineEnds_ended hlines hapart
  · rw [publish, read, sourceLines_unifyLineEnds h, publish, read]
  · rw [publish, read_concat_feed hend, publish]

/-- Three lines that end each in its own way, and a guide that ends with a carriage return. -/
theorem publish_unified_mixed :
    Text.unifyLineEnds (Text.ended
        [("a".toList, .carriageReturn), ([], .pair), ("b".toList, .feed)]) =
      "a\n\nb\n".toList ∧
    publish "fun main() \x7b\n\x7d\n".toList "p".toList none =
      publish "fun main() \x7b\r\n\x7d\r".toList "p".toList none ∧
    publish "fun main() \x7b\n\x7d\r\n".toList "p".toList none =
      publish "fun main() \x7b\n\x7d\r".toList "p".toList none := by
  obtain ⟨-, hended, hunified, hfeed⟩ := publish_unified "p".toList none
  exact ⟨hended [("a".toList, .carriageReturn), ([], .pair), ("b".toList, .feed)] (by decide)
    (by decide), hunified "fun main() \x7b\r\n\x7d\r".toList (by decide),
    hfeed "fun main() \x7b\n\x7d\r".toList (by decide)⟩

end Guide

end Guidebook
