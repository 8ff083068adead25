import Guidebook.Proofs.Guide.CodeRouting
import Guidebook.Proofs.Text.Margins

/-!
# What Follows a Text

Behind the closing quotes of a text may stand a call to trim. It is checked and otherwise means
nothing: a text on one line is trimmed and one on several lines is dedented, whether they are
followed by a call or not, and by whichever. So what can be seen of the text is on the page, margins
included, although the trailer may be `.trimMargin()`.

## Main results

* `Guide.isTextBlock_iff`: the prose of a text does not depend on its trailer.
* `Guide.ink_proseOf`: it shows all of the text.
* `Guide.publish_trimMargin`: **a text with a margin is dedented**, and when that is what its
  trailer asks for.
-/

namespace Guidebook.Guide

/-! ### Strings and their trailers -/

/-- The lines are a text: its string, line by line, from behind its opening quotes to the first
quotes behind them, and the trailer behind these. -/
inductive IsQuoted : List Text → List Text → Text → Prop
  | short {lead : List Text} {inline : Bool} {first opening inside trailer : Text}
      (hlead : Lead "Text".toList lead inline first)
      (hopening : Text.trim first = textQuotes ++ opening)
      (hclose : Text.FirstAt textQuotes opening inside trailer) : IsQuoted lead [inside] trailer
  | long {lead inner : List Text} {inline : Bool} {first opening last inside trailer : Text}
      (hlead : Lead "Text".toList lead inline first)
      (hopening : Text.trim first = textQuotes ++ opening) (hopen : ¬ textQuotes <:+: opening)
      (hinner : ∀ l ∈ inner, ¬ textQuotes <:+: l)
      (hclose : Text.FirstAt textQuotes last inside trailer) :
      IsQuoted (lead ++ inner ++ [last]) (opening :: inner ++ [inside]) trailer

/-- The prose that a string is: one on a single line is trimmed, any other is dedented. -/
def proseOf : List Text → Text
  | [inside] => Text.trim inside
  | string => Text.dedent string

/-- A string on several lines is dedented. -/
theorem proseOf_long (opening inside : Text) (inner : List Text) :
    proseOf (opening :: inner ++ [inside]) = Text.dedent (opening :: inner ++ [inside]) := by
  cases inner <;> rfl

/-- **The prose of a text** is told by its string alone. -/
theorem isTextBlock_iff {lines : List Text} {prose : Text} :
    IsTextBlock lines prose ↔
      ∃ string trailer, IsQuoted lines string trailer ∧ IsTrailer trailer ∧
        prose = proseOf string := by
  constructor
  · rintro (⟨hlead, hopening, hclose, htrailer⟩ |
      ⟨hlead, hopening, hopen, hinner, hclose, htrailer⟩)
    · exact ⟨_, _, .short hlead hopening hclose, htrailer, rfl⟩
    · exact ⟨_, _, .long hlead hopening hopen hinner hclose, htrailer, (proseOf_long _ _ _).symm⟩
  · rintro ⟨string, trailer, hquoted, htrailer, rfl⟩
    cases hquoted with
    | short hlead hopening hclose => exact .short hlead hopening hclose htrailer
    | long hlead hopening hopen hinner hclose =>
        rw [proseOf_long]
        exact .long hlead hopening hopen hinner hclose htrailer

/-- Prose shows all that can be seen of the string. -/
theorem ink_proseOf (string : List Text) :
    Text.ink (proseOf string) = string.flatMap Text.ink := by
  unfold proseOf
  split
  · next inside => rw [Text.ink_trim, List.flatMap_singleton]
  · exact Text.ink_dedent string

/-! ### Pages -/

/-- The sections that additions make up. -/
def sectionsOf (additions : List Addition) : List PageSection :=
  (additions.filterMap Addition.block?).filterMap Block.section?

/-- Additions in a row make up their sections in a row. -/
theorem sectionsOf_append (first second : List Addition) :
    sectionsOf (first ++ second) = sectionsOf first ++ sectionsOf second := by
  rw [sectionsOf, List.filterMap_append, List.filterMap_append]
  rfl

/-- The page of the guide that the additions make consists of their sections. -/
theorem page_addAll (additions : List Addition) :
    (empty.addAll additions).page = pageOf (sectionsOf additions) := by
  rw [page_eq_pageOf, blocks_addAll]
  rfl

/-- The guide with a text between other items. -/
theorem read_of_text {content : Text} {front lines rest string : List Text} {trailer : Text}
    {above below : List Addition} (hcontent : sourceLines content = front ++ lines ++ rest)
    (hfront : Items .preamble front above .body) (hquoted : IsQuoted lines string trailer)
    (htrailer : IsTrailer trailer) (hrest : Items .body rest below .trailer) :
    read content = .ok (empty.addAll (above ++ [.block (.text (proseOf string))] ++ below)) := by
  have htext : IsTextBlock lines (proseOf string) :=
    isTextBlock_iff.2 ⟨string, trailer, hquoted, htrailer, rfl⟩
  rw [read, hcontent]
  exact ofLines_eq_ok_iff.2 ⟨_, (hfront.append (.of_item (.text htext))).append hrest, rfl⟩

/-! ### Sources -/

/-- **A text with a margin is dedented.** Take a source with a text between other items that is
followed by `.trimMargin()`. It is accepted, and the section of the text is its string, trimmed or
dedented, with all that can be seen of it. With any other trailer behind the string the source is
published the same. So the section is what is left of the lines without their margins if and only if
there are none, and the string without blank lines at its ends is trimmed or dedented already. -/
theorem publish_trimMargin {content : Text} {front lines rest string : List Text} {trailer : Text}
    {above below : List Addition} (hcontent : sourceLines content = front ++ lines ++ rest)
    (hfront : Items .preamble front above .body) (hquoted : IsQuoted lines string trailer)
    (htrailer : Text.trim trailer = ".trimMargin()".toList)
    (hrest : Items .body rest below .trailer) (package : Text) (link : Option PublicLink) :
    ∃ p, publish content package link = .ok p ∧
      p.page = pageOf (sectionsOf above ++ (Block.text (proseOf string)).section?.toList
        ++ sectionsOf below) ∧
      Text.ink (proseOf string) = string.flatMap Text.ink ∧
      (∀ other otherLines otherTrailer, sourceLines other = front ++ otherLines ++ rest →
        IsQuoted otherLines string otherTrailer → IsTrailer otherTrailer →
        publish other package link = .ok p) ∧
      (proseOf string = Text.trimMargin string ↔
        (∀ line ∈ string, Text.hasMargin line = false) ∧
          proseOf string = Text.join ['\n'] (Text.dropBlankEnds string)) := by
  have hread := read_of_text hcontent hfront hquoted (.inr (.inr htrailer)) hrest
  refine ⟨_, publish_eq_ok_iff.2 ⟨_, hread, rfl⟩, ?_, ink_proseOf string, ?_,
    Text.eq_trimMargin_iff (ink_proseOf string)⟩
  · refine (page_addAll _).trans ?_
    rw [sectionsOf_append, sectionsOf_append]
    cases hsection : (Block.text (proseOf string)).section? <;>
      simp [sectionsOf, Addition.block?, hsection]
  · intro other otherLines otherTrailer hother hquoted' htrailer'
    exact publish_eq_ok_iff.2 ⟨_, read_of_text hother hfront hquoted' htrailer' hrest, rfl⟩

/-- A text whose lines have margins, followed by the given trailer. -/
def linesWithMargin (trailer : Text) : List Text :=
  ["@Text \"\"\"  |One".toList, "    |  two".toList, [], "  \"\"\"".toList ++ trailer]

/-- A guide with this text. -/
def guideWithMargin (trailer : Text) : Text :=
  Text.unlines (["fun main() \x7b".toList] ++ linesWithMargin trailer ++ [['\x7d']])

/-- The string of the text. -/
def stringWithMargin : List Text :=
  ["  |One".toList, "    |  two".toList, [], "  ".toList]

/-- The lines are a text with this string, if the trailer holds no quotes that would close it
earlier. -/
theorem isQuoted_linesWithMargin {trailer : Text}
    (h : Text.FirstAt textQuotes ("  \"\"\"".toList ++ trailer) "  ".toList trailer) :
    IsQuoted (linesWithMargin trailer) stringWithMargin trailer := by
  have hmarks : Marks "@Text \"\"\"  |One".toList "Text".toList "\"\"\"  |One".toList :=
    ⟨" \"\"\"  |One".toList, by decide +kernel, List.all_eq_true.1 (by decide),
      fun c hc => Option.some.inj hc ▸ by decide, by decide +kernel⟩
  have hquoted : IsQuoted (["@Text \"\"\"  |One".toList] ++ ["    |  two".toList, []]
        ++ ["  \"\"\"".toList ++ trailer])
      ("  |One".toList :: ["    |  two".toList, []] ++ ["  ".toList]) trailer :=
    .long (.inline hmarks (by decide)) (by decide +kernel) (by decide +kernel) (by decide +kernel) h
  exact hquoted

/-- The margins are on the page, with either trailer. -/
theorem publish_trimMargin_of_guideWithMargin :
    (∃ p, publish (guideWithMargin ".trimMargin()".toList) "examples".toList none = .ok p ∧
        p.page = "|One\n  |  two\n".toList ∧
        publish (guideWithMargin " .trimIndent() ".toList) "examples".toList none = .ok p) ∧
      proseOf stringWithMargin ≠ Text.trimMargin stringWithMargin := by
  have hfront : Items .preamble ["fun main() \x7b".toList] [.nothing] .body :=
    .of_item (.main (by decide +kernel))
  have hrest : Items .body [['\x7d']] [.nothing] .trailer := .of_item (.close (by decide))
  have hmargin : IsQuoted (linesWithMargin ".trimMargin()".toList) stringWithMargin
      ".trimMargin()".toList :=
    isQuoted_linesWithMargin ⟨by decide +kernel, by decide +kernel⟩
  have hindent : IsQuoted (linesWithMargin " .trimIndent() ".toList) stringWithMargin
      " .trimIndent() ".toList :=
    isQuoted_linesWithMargin ⟨by decide +kernel, by decide +kernel⟩
  have hcontent : sourceLines (guideWithMargin ".trimMargin()".toList) =
      ["fun main() \x7b".toList] ++ linesWithMargin ".trimMargin()".toList ++ [['\x7d']] := by
    decide +kernel
  have hother : sourceLines (guideWithMargin " .trimIndent() ".toList) =
      ["fun main() \x7b".toList] ++ linesWithMargin " .trimIndent() ".toList ++ [['\x7d']] := by
    decide +kernel
  obtain ⟨p, hp, hpage, -, htrailer, hiff⟩ := publish_trimMargin hcontent hfront hmargin
    (by decide +kernel) hrest "examples".toList none
  refine ⟨⟨p, hp, ?_, htrailer _ _ _ hother hindent (.inr (.inl (by decide +kernel)))⟩,
    fun heq => ?_⟩
  · rw [hpage]
    decide +kernel
  · exact absurd ((hiff.1 heq).1 "  |One".toList List.mem_cons_self) (by decide)

/-- A margin is shown that its trailer asks to take off. -/
theorem publish_with_margin :
    sourceLines "fun main() \x7b\n@Text\n\"\"\"\n  |a\n  |b\n\"\"\".trimMargin()\n\x7d\n".toList =
        ["fun main() \x7b".toList]
          ++ ["@Text".toList, textQuotes, "  |a".toList, "  |b".toList,
            textQuotes ++ ".trimMargin()".toList]
          ++ [['\x7d']] ∧
      IsQuoted ["@Text".toList, textQuotes, "  |a".toList, "  |b".toList,
          textQuotes ++ ".trimMargin()".toList]
        [[], "  |a".toList, "  |b".toList, []] ".trimMargin()".toList ∧
      publish "fun main() \x7b\n@Text\n\"\"\"\n  |a\n  |b\n\"\"\".trimMargin()\n\x7d\n".toList
          "examples".toList none =
        .ok ⟨.empty, "|a\n|b\n".toList, [], []⟩ ∧
      pageOf [.other (Text.trimMargin [[], "  |a".toList, "  |b".toList, []])] =
        "a\nb\n".toList := by
  have hmarks : Marks "@Text".toList "Text".toList [] :=
    ⟨[], by decide +kernel, List.all_eq_true.1 (by decide), by simp, rfl⟩
  have hlead : Lead "Text".toList ("@Text".toList :: [] ++ [textQuotes]) false textQuotes :=
    .below hmarks (List.forall_mem_nil _) (by decide)
  have hquoted : IsQuoted
      ("@Text".toList :: [] ++ [textQuotes] ++ ["  |a".toList, "  |b".toList]
        ++ [textQuotes ++ ".trimMargin()".toList])
      ([] :: ["  |a".toList, "  |b".toList] ++ [[]]) ".trimMargin()".toList :=
    .long hlead (by decide +kernel) (by decide) (by decide)
      ⟨by decide +kernel, by decide +kernel⟩
  exact ⟨by decide +kernel, hquoted, by decide +kernel, by decide +kernel⟩

end Guidebook.Guide
