import Guidebook.Proofs.Directive.Grammar
import Guidebook.Proofs.Guide.Composition

/-!
# Markers

There are seven markers. A line of the body that begins with `@` and any other name is rejected, as
far as the reader takes the whole name. It takes letters, numbers and dots, but no underscores,
which belong to names as well: at the first underscore the name is over for it, as at a blank. So a
name with an underscore is rejected by what stands in front of the underscore, or, where that is a
marker of code, it is not rejected and the rest of it is code.

## Main results

* `Guide.Reader.step_unknown`: a line with another name is an error.
* `Guide.publish_of_marks`: lines with the same name and the same argument are read alike.
* `Guide.publish_unknown_marker`: **what becomes of a name that is no marker**.
-/

namespace Guidebook.Guide

/-- The names of the markers. -/
def markerNames : List Text :=
  ["Text".toList, "Media.Image".toList, "Media.Video".toList, "Code".toList, "Code.Block".toList,
    "Code.Export".toList, "Application".toList]

/-- Whether a character can stand in a name with dots. -/
def isNameChar (c : Char) : Bool :=
  isMarkerChar c || c = '_'

/-- A character of a name can stand in a marker unless it is an underscore. -/
theorem isMarkerChar_of_isNameChar {c : Char} (h : isNameChar c = true) (hc : c ≠ '_') :
    isMarkerChar c = true := by
  rw [isNameChar, Bool.or_eq_true, decide_eq_true_eq] at h
  exact h.resolve_right hc

/-- What cannot stand in a name cannot stand in a marker either. -/
theorem isMarkerChar_eq_false {c : Char} (h : isNameChar c = false) : isMarkerChar c = false := by
  rw [isNameChar, Bool.or_eq_false_iff] at h
  exact h.1

/-! ### Names and markers -/

section Names

variable {line name tail : Text}

/-- A name without underscores is taken as a whole. -/
theorem marks_of_not_mem (hline : Text.trim line = '@' :: (name ++ tail))
    (hname : ∀ c ∈ name, isNameChar c = true) (htail : ∀ c ∈ tail.head?, isNameChar c = false)
    (hunderscore : '_' ∉ name) : Marks line name (Text.trim tail) := by
  refine ⟨tail, hline, fun c hc => ?_, fun c hc => isMarkerChar_eq_false (htail c hc), rfl⟩
  exact isMarkerChar_of_isNameChar (hname c hc) fun heq => hunderscore (heq ▸ hc)

/-- At an underscore a name is over. -/
theorem marks_of_underscore {front more : Text}
    (hline : Text.trim line = '@' :: (front ++ '_' :: more ++ tail))
    (hname : ∀ c ∈ front ++ '_' :: more, isNameChar c = true) (hfront : '_' ∉ front) :
    Marks line front (Text.trim ('_' :: (more ++ tail))) := by
  refine ⟨'_' :: (more ++ tail), by rw [hline]; simp, fun c hc => ?_, fun c hc => ?_, rfl⟩
  · exact isMarkerChar_of_isNameChar (hname c (List.mem_append_left _ hc))
      fun heq => hfront (heq ▸ hc)
  · obtain rfl := Option.some.inj hc
    decide +kernel

end Names

namespace Reader

variable {line name argument : Text} (n : Nat) (guide : Guide)

/-- A name that is no marker is an error. -/
theorem step_unknown (h : Marks line name argument) (hname : name ∉ markerNames) :
    step ⟨n, .body, .item, guide⟩ line = .error ⟨n + 1, .unknownMarker name⟩ := by
  have hne : ∀ marker ∈ markerNames, name ≠ marker := by
    rintro marker hmarker rfl
    exact hname hmarker
  have hcode : CodeKind.ofMarker? name = none := by
    rw [Option.eq_none_iff_forall_ne_some]
    intro kind hkind
    rw [ofMarker?_eq_some_iff] at hkind
    cases kind <;> exact hne _ (by decide) hkind
  rw [step_marked n guide h, if_neg (hne _ (by decide)), if_neg (hne _ (by decide)),
    if_neg (hne _ (by decide)), hcode]
  rfl

/-- What begins with an underscore is no text. -/
theorem step_text_underscore {more : Text}
    (h : Marks line "Text".toList (Text.trim ('_' :: more))) :
    step ⟨n, .body, .item, guide⟩ line = .error ⟨n + 1, .textMissing⟩ := by
  obtain ⟨rest, hrest⟩ := Text.exists_trim_cons (show Text.isSpace '_' = false by decide) more
  rw [hrest] at h
  rw [step_text_inline n guide h (List.cons_ne_nil _ _)]
  rfl

/-- What begins with an underscore is no path of an image or video. -/
theorem step_media_underscore {kind : MediaKind} {more : Text}
    (h : Marks line kind.marker (Text.trim ('_' :: more))) :
    step ⟨n, .body, .item, guide⟩ line =
      .error ⟨n + 1, .notALiteral (Text.trim ('_' :: more))⟩ := by
  obtain ⟨rest, hrest⟩ := Text.exists_trim_cons (show Text.isSpace '_' = false by decide) more
  rw [hrest] at h ⊢
  have hparse : Literal.parse ('_' :: rest) = .error .notALiteral :=
    if_neg (Lexeme.list_ne_literal (by decide) rest)
  rw [step_media n guide h, mediaLine, hparse]
  rfl

end Reader

/-! ### Sources -/

section Sources

variable {content line name tail : Text} {front below : List Text} {r : Reader}

/-- **Lines with the same marker and the same argument** are read alike. -/
theorem publish_of_marks {other argument spaced : Text}
    (hcontent : sourceLines content = front ++ line :: below)
    (hspaced : sourceLines spaced = front ++ other :: below)
    (hfront : Reader.start.run front = .ok r) (hpart : r.part = .body) (hitem : r.pending = .item)
    (hline : Marks line name argument) (hother : Marks other name argument) (package : Text)
    (link : Option PublicLink) : publish content package link = publish spaced package link := by
  obtain ⟨guide, rfl⟩ := exists_guide_of_run hfront hpart hitem
  have hread : read content = read spaced := by
    rw [read, read, hcontent, hspaced, ofLines_append hfront, ofLines_append hfront,
      Reader.run_cons, Reader.run_cons, Reader.step_marked _ guide hline,
      Reader.step_marked _ guide hother]
  rw [publish, publish, hread]

/-- **What becomes of a name that is no marker.** Take a line at which the reader stands in the body
between items and which begins with `@`, and the longest name behind it, of letters, numbers, dots
and underscores, that is not the name of a marker. Without an underscore, the name is rejected at
this line. With one, what stands in front of the first underscore is taken for the name. If that is
no marker either, it is rejected at this line as the name; behind `Text` and the markers of media
the rest of the name is rejected at this line as something that is neither a text nor a path; and
behind a marker of code the rest is code, as if there were a blank in front of the underscore. -/
theorem publish_unknown_marker (package : Text) (link : Option PublicLink)
    (hcontent : sourceLines content = front ++ line :: below)
    (hfront : Reader.start.run front = .ok r) (hpart : r.part = .body) (hitem : r.pending = .item)
    (hline : Text.trim line = '@' :: (name ++ tail))
    (hname : ∀ c ∈ name, isNameChar c = true) (htail : ∀ c ∈ tail.head?, isNameChar c = false)
    (hunknown : name ∉ markerNames) :
    ('_' ∉ name → publish content package link =
      .error ⟨front.length + 1, "unknown annotation `@".toList ++ name ++ ['`']⟩) ∧
    ∀ kept more, name = kept ++ '_' :: more → '_' ∉ kept →
      (kept ∉ markerNames → publish content package link =
        .error ⟨front.length + 1, "unknown annotation `@".toList ++ kept ++ ['`']⟩) ∧
      (kept = "Text".toList → publish content package link =
        .error ⟨front.length + 1, Fault.textMissing.message⟩) ∧
      (∀ kind : MediaKind, kept = kind.marker → publish content package link =
        .error ⟨front.length + 1,
          (Fault.notALiteral (Text.trim ('_' :: more ++ tail))).message⟩) ∧
      ∀ kind : CodeKind, kept = kind.marker → ∀ spaced other,
        sourceLines spaced = front ++ other :: below →
        Text.trim other = '@' :: (kept ++ ' ' :: '_' :: more ++ tail) →
        publish content package link = publish spaced package link := by
  obtain ⟨guide, rfl⟩ := exists_guide_of_run hfront hpart hitem
  have hrejected : ∀ {fault},
      Reader.step ⟨front.length, .body, .item, guide⟩ line = .error ⟨front.length + 1, fault⟩ →
        publish content package link = .error ⟨front.length + 1, fault.message⟩ :=
    fun hstep => publish_of_step_error hcontent hfront hstep package link
  refine ⟨fun hunderscore => ?_, ?_⟩
  · have hmarks := marks_of_not_mem hline hname htail hunderscore
    exact hrejected (Reader.step_unknown _ guide hmarks hunknown)
  rintro kept more rfl hkept
  have hmarks : Marks line kept (Text.trim ('_' :: more ++ tail)) :=
    marks_of_underscore hline hname hkept
  refine ⟨fun hfault => ?_, ?_, ?_, ?_⟩
  · exact hrejected (Reader.step_unknown _ guide hmarks hfault)
  · rintro rfl
    exact hrejected (Reader.step_text_underscore _ guide hmarks)
  · rintro kind rfl
    exact hrejected (Reader.step_media_underscore _ guide hmarks)
  · intro kind _ spaced other hspaced hother
    refine publish_of_marks hcontent hspaced hfront rfl rfl hmarks ?_ package link
    refine ⟨' ' :: '_' :: more ++ tail, by rw [hother]; simp, fun c hc => ?_, fun c hc => ?_, ?_⟩
    · exact hmarks.choose_spec.2.1 c hc
    · obtain rfl := Option.some.inj hc
      decide +kernel
    · exact Text.trim_append_left (show Text.isBlank [' '] = true by decide) _

end Sources

/-- A marker of code, with an underscore for its dot, is read as another marker of code; one of
media, with an underscore for its dot, is cited by its first half. -/
theorem publish_of_underscores :
    publish "fun main() \x7b\n@Code_Block f()\n\x7d\n".toList "examples".toList none =
        publish "fun main() \x7b\n@Code _Block f()\n\x7d\n".toList "examples".toList none ∧
      publish "fun main() \x7b\n@Media_Image \"a\"\n\x7d\n".toList "examples".toList none =
        .error ⟨2, "unknown annotation `@Media`".toList⟩ := by
  have hfront : Reader.start.run ["fun main() \x7b".toList] = .ok ⟨1, .body, .item, empty⟩ := rfl
  constructor
  · have hcontent : sourceLines "fun main() \x7b\n@Code_Block f()\n\x7d\n".toList =
        ["fun main() \x7b".toList] ++ "@Code_Block f()".toList :: [['\x7d']] := by
      decide +kernel
    have hspaced : sourceLines "fun main() \x7b\n@Code _Block f()\n\x7d\n".toList =
        ["fun main() \x7b".toList] ++ "@Code _Block f()".toList :: [['\x7d']] := by
      decide +kernel
    have hline : Text.trim "@Code_Block f()".toList =
        '@' :: ("Code_Block".toList ++ " f()".toList) := by
      decide +kernel
    have htail : ∀ c ∈ (" f()".toList).head?, isNameChar c = false := by
      intro c hc
      obtain rfl := Option.some.inj hc
      decide +kernel
    obtain ⟨-, hunderscore⟩ := publish_unknown_marker "examples".toList none hcontent hfront rfl rfl
      hline (List.all_eq_true.1 (by decide +kernel)) htail (by decide)
    obtain ⟨-, -, -, hcode⟩ :=
      hunderscore "Code".toList "Block".toList (by decide) (by decide)
    exact hcode .shown rfl _ _ hspaced (by decide +kernel)
  · have hcontent : sourceLines "fun main() \x7b\n@Media_Image \"a\"\n\x7d\n".toList =
        ["fun main() \x7b".toList] ++ "@Media_Image \"a\"".toList :: [['\x7d']] := by
      decide +kernel
    have hline : Text.trim "@Media_Image \"a\"".toList =
        '@' :: ("Media_Image".toList ++ " \"a\"".toList) := by
      decide +kernel
    have htail : ∀ c ∈ (" \"a\"".toList).head?, isNameChar c = false := by
      intro c hc
      obtain rfl := Option.some.inj hc
      decide +kernel
    obtain ⟨-, hunderscore⟩ := publish_unknown_marker "examples".toList none hcontent hfront rfl rfl
      hline (List.all_eq_true.1 (by decide +kernel)) htail (by decide)
    obtain ⟨hrejected, -⟩ :=
      hunderscore "Media".toList "Image".toList (by decide) (by decide)
    exact hrejected (by decide)

/-- `Code_Block` is no marker, but the source is accepted, and what is behind the underscore is on
its page. -/
theorem publish_name_with_underscore :
    "Code_Block".toList ∉ markerNames ∧
      publish "fun main() \x7b\n@Code_Block f()\n\x7d\n".toList "examples".toList none =
        .ok ⟨.empty, "```kotlin\n_Block f()\n```\n".toList,
          ["package examples\n\nfun main() \x7b\n    _Block f()\n\x7d\n".toList],
          ["package examples\n\nfun main() \x7b\n    _Block f()\n\x7d\n".toList]⟩ :=
  ⟨by decide, by decide +kernel⟩

end Guidebook.Guide
