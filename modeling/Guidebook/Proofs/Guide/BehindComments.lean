import Guidebook.Proofs.Guide.Insertion

/-!
# Text Behind Comments

A comment ends at the first `*/`, but with it the reader is done with the whole line. Text behind
the `*/` is read over as the comment is, whether it is a directive, a marker or the closing `}`:
what is published does not depend on it. On a line of its own the same text would be read or
rejected; so the two ways to write it agree for those texts only that say nothing at their place.

That no other text can agree is shown by completing the guide at once: the few lines that complete
it (`Part.closing`) do so only for a reader that the text has left as it was.

## Main results

* `Guide.Reader.eq_skip_of_completes`: text that makes no difference to a guide completed at once.
* `Guide.publish_behind_comment`: **text behind a comment is lost**.
-/

namespace Guidebook.Guide

/-- A comment between `/*` and the first `*/` behind it, on one line or on several, and what stands
behind it on its last line. -/
inductive IsComment : List Text → Text → Prop
  | short {line rest inside behind : Text} (h : Text.trim line = "/*".toList ++ rest)
      (hclose : Text.FirstAt "*/".toList rest inside behind) : IsComment [line] behind
  | long {line rest last inside behind : Text} {inner : List Text}
      (h : Text.trim line = "/*".toList ++ rest) (hopen : ¬ "*/".toList <:+: rest)
      (hinner : ∀ l ∈ inner, ¬ "*/".toList <:+: l)
      (hclose : Text.FirstAt "*/".toList last inside behind) :
      IsComment (line :: inner ++ [last]) behind

namespace IsComment

variable {comment : List Text} {behind : Text}

/-- A comment says nothing, with all that stands behind it. -/
theorem isSkip (h : IsComment comment behind) : IsSkip comment := by
  cases h with
  | short h hclose => exact .comment h hclose.isInfix
  | long h hopen hinner hclose => exact .longComment h hopen hinner hclose.isInfix

/-- A comment has at least one line. -/
theorem length_pos (h : IsComment comment behind) : 0 < comment.length := by
  cases h <;> simp

/-- What stands behind a comment stands on one of its lines. -/
theorem exists_mem (h : IsComment comment behind) {c : Char} (hc : c ∈ behind) :
    ∃ line ∈ comment, c ∈ line := by
  cases h with
  | @short line rest _ _ h hclose =>
      refine ⟨line, List.mem_singleton.2 rfl, Text.mem_of_mem_trim ?_⟩
      rw [h, hclose.1]
      simp [hc]
  | @long _ _ last _ _ _ _ _ _ hclose =>
      refine ⟨last, by simp, ?_⟩
      rw [hclose.1]
      simp [hc]

end IsComment

/-- The lines that complete a guide at once. -/
def Part.closing : Part → List Text
  | .preamble => ["fun main() \x7b".toList, ['\x7d']]
  | .body => [['\x7d']]
  | .trailer => []

/-- The lines that complete a guide are single lines. -/
theorem Part.not_mem_closing (part : Part) : ∀ line ∈ part.closing, '\n' ∉ line := by
  cases part <;> decide

namespace Reader

/-- **Completing a guide at once** takes a reader that is at that part of it. -/
theorem finish_closing_iff {n : Nat} {part next : Part} {guide other : Guide} :
    (run ⟨n, next, .item, guide⟩ part.closing).bind finish = .ok other ↔
      next = part ∧ guide = other := by
  have hcompletes : (run ⟨n, part, .item, guide⟩ part.closing).bind finish = .ok guide := by
    cases part <;> rfl
  constructor
  · intro h
    have hnext : next = part := by
      cases part with
      | preamble =>
          cases next with
          | preamble => rfl
          | _ => cases h
      | body =>
          cases next with
          | body => rfl
          | _ => cases h
      | trailer =>
          cases next with
          | trailer => rfl
          | _ => cases h
    subst hnext
    exact ⟨rfl, Except.ok.inj (hcompletes.symm.trans h)⟩
  · rintro ⟨rfl, rfl⟩
    exact hcompletes

/-- The body is left by a line on its own, not by one of an item that other lines have begun. -/
theorem part_of_step {before : Nat} {guide : Guide} {lines : List Text} {line : Text}
    {pending : Pending} {r : Reader} (h : Partial before .body lines pending) (hne : lines ≠ [])
    (hstep : step ⟨before + lines.length, .body, pending, guide⟩ line = .ok r) :
    r.part = .body := by
  rcases step_partial h hstep with ⟨addition, next, hitem, rfl⟩ | ⟨pending, -, rfl⟩
  · by_contra hnext
    obtain ⟨close, hclose, -⟩ := hitem.close_of_body hnext
    have hlength := congrArg List.length hclose
    rw [List.length_append, List.length_singleton, List.length_singleton] at hlength
    exact hne (List.length_eq_zero_iff.1 (by omega))
  · rfl

/-- What has been begun in the body takes the line `}` for one of its own, so the guide is not
complete with it. -/
theorem not_completes_body {before : Nat} {guide other : Guide} {lines : List Text}
    {pending : Pending} (h : Partial before .body lines pending) (hne : lines ≠ []) :
    (run ⟨before + lines.length, .body, pending, guide⟩ Part.body.closing).bind finish ≠
      .ok other := by
  intro hfinish
  rw [Part.closing, run_singleton] at hfinish
  cases hstep : step ⟨before + lines.length, .body, pending, guide⟩ ['\x7d'] with
  | error e =>
      rw [hstep] at hfinish
      cases hfinish
  | ok r =>
      rw [hstep] at hfinish
      obtain ⟨-, hpart, -⟩ := finish_eq_ok_iff.1 hfinish
      rw [part_of_step h hne hstep] at hpart
      cases hpart

/-- What has been begun is not completed at once. -/
theorem not_completes {before : Nat} {part : Part} {guide other : Guide} {lines : List Text}
    {pending : Pending} (h : Partial before part lines pending) (hne : lines ≠ []) :
    (run ⟨before + lines.length, part, pending, guide⟩ part.closing).bind finish ≠ .ok other := by
  -- only comments are begun outside of the body, and the lines that complete a guide end none
  cases h with
  | item => exact absurd rfl hne
  | comment htrim hopen hinner =>
      cases part with
      | preamble => exact nofun
      | body => exact not_completes_body (.comment htrim hopen hinner) hne
      | trailer => exact nofun
  | textMarker h hblanks => exact not_completes_body (.textMarker h hblanks) hne
  | text hlead hopening hopen hinner =>
      exact not_completes_body (.text hlead hopening hopen hinner) hne
  | codeMarker h hblanks => exact not_completes_body (.codeMarker h hblanks) hne
  | code hlead hfirst hopen => exact not_completes_body (.code hlead hfirst hopen) hne

/-- **Text that makes no difference** to a guide completed at once leaves the reader as it is. -/
theorem eq_skip_of_completes {r s : Reader} {line : Text} (hitem : r.pending = .item)
    (hstep : r.step line = .ok s) (h : (s.run r.part.closing).bind finish = .ok r.guide) :
    s = r.skip := by
  obtain ⟨n, part, pending, guide⟩ := r
  subst hitem
  rcases advances_of_itemLine hstep with ⟨addition, next, -, rfl⟩ | ⟨pending, hpartial, rfl⟩
  · obtain ⟨rfl, hguide⟩ := finish_closing_iff.1 h
    rw [hguide]
    rfl
  · exact absurd h (not_completes hpartial (List.cons_ne_nil line []))

end Reader

section Behind

variable {front comment rest : List Text} {behind content : Text} {r : Reader}

/-- The reader behind a comment is further down, and otherwise as before it. -/
theorem run_comment (hfront : Reader.start.run front = .ok r) (hitem : r.pending = .item)
    (hcomment : IsComment comment behind) :
    Reader.start.run (front ++ comment) = .ok (r.later comment.length) := by
  have hskips := Reader.run_skips_later hitem (List.forall_mem_singleton.2 hcomment.isSkip)
  rw [List.flatten_singleton] at hskips
  rw [Reader.run_append, hfront]
  exact hskips

/-- A line that says nothing at its place is as good as a comment, but for the lines counted. -/
theorem ofLines_of_step_skip {below : List Text} (hfront : Reader.start.run front = .ok r)
    (hitem : r.pending = .item) (hcomment : IsComment comment behind)
    (hstep : r.step behind = .ok r.skip) :
    ofLines (front ++ comment ++ below) =
      (ofLines (front ++ [behind] ++ below)).mapError (Error.later (comment.length - 1)) := by
  have hplain : Reader.start.run (front ++ [behind]) = .ok r.skip := by
    rw [Reader.run_append, hfront]
    exact (Reader.run_singleton r behind).trans hstep
  have hlater : r.skip.later (comment.length - 1) = r.later comment.length := by
    have hpos := hcomment.length_pos
    obtain ⟨n, part, pending, guide⟩ := r
    subst hitem
    have hcount : comment.length - 1 + (n + 1) = comment.length + n := by omega
    exact congrArg (fun line => (⟨line, part, .item, guide⟩ : Reader)) hcount
  refine ofLines_later (by simp) hplain ?_
  rw [hlater]
  exact run_comment hfront hitem hcomment

/-- A line that is as good as a comment, though the guide be completed at once, says nothing at its
place. -/
theorem step_skip_of_ofLines (hfront : Reader.start.run front = .ok r)
    (hitem : r.pending = .item) (hcomment : IsComment comment behind)
    (h : ofLines (front ++ comment ++ r.part.closing) =
      (ofLines (front ++ [behind] ++ r.part.closing)).mapError
        (Error.later (comment.length - 1))) :
    r.step behind = .ok r.skip := by
  have hfull : ofLines (front ++ comment ++ r.part.closing) = .ok r.guide := by
    rw [ofLines_append (run_comment hfront hitem hcomment)]
    obtain ⟨n, part, pending, guide⟩ := r
    subst hitem
    exact Reader.finish_closing_iff.2 ⟨rfl, rfl⟩
  have hbehind : Reader.start.run (front ++ [behind]) = r.step behind := by
    rw [Reader.run_append, hfront]
    exact Reader.run_singleton r behind
  rw [hfull] at h
  cases hstep : r.step behind with
  | error e =>
      have hplain : ofLines (front ++ [behind] ++ r.part.closing) = .error e := by
        rw [ofLines, Reader.run_append, hbehind, hstep]
        rfl
      rw [hplain] at h
      cases h
  | ok s =>
      rw [ofLines_append (hbehind.trans hstep)] at h
      cases hplain : (s.run r.part.closing).bind Reader.finish with
      | error e =>
          rw [hplain] at h
          cases h
      | ok guide =>
          rw [hplain] at h
          obtain rfl := Except.ok.inj h
          exact congrArg Except.ok (Reader.eq_skip_of_completes hitem hstep hplain)

/-- **Text behind a comment is lost.** Take a comment of a source, at which the reader is in the
middle of nothing, and the text `behind` it on its last line. What is published does not depend on
this text: it is what is published with any other comment of as many lines, whatever stands behind
that. So the text is not read as it would be on a line of its own, in place of the comment. Both
sources agree whatever comes below, but for the lines at which errors are reported, exactly if the
text says nothing there: if on a line of its own it would leave the reader as it is. -/
theorem publish_behind_comment (hcontent : sourceLines content = front ++ comment ++ rest)
    (hfront : Reader.start.run front = .ok r) (hitem : r.pending = .item)
    (hcomment : IsComment comment behind) :
    (∀ ⦃same : Text⦄ ⦃other : List Text⦄ ⦃text : Text⦄, IsComment other text →
      other.length = comment.length → sourceLines same = front ++ other ++ rest →
        ∀ package link, publish content package link = publish same package link) ∧
    ((∀ ⦃full plain : Text⦄ ⦃below : List Text⦄, sourceLines full = front ++ comment ++ below →
        sourceLines plain = front ++ [behind] ++ below →
          read full = (read plain).mapError (Error.later (comment.length - 1))) ↔
      r.step behind = .ok r.skip) := by
  have hpast := run_comment hfront hitem hcomment
  refine ⟨fun same other text hother hlength hsame package link => ?_, fun hsame => ?_,
    fun hstep full plain below hfull hplain => ?_⟩
  · have hthere := run_comment hfront hitem hother
    rw [publish, publish, read, read, hcontent, hsame, ofLines_append hpast, ofLines_append hthere,
      hlength]
  · have hfeed : ∀ line ∈ front ++ comment, '\n' ∉ line := fun line hline =>
      not_mem_of_mem_sourceLines (hcontent ▸ List.mem_append_left rest hline)
    have hbehind : '\n' ∉ behind := by
      intro hmem
      obtain ⟨line, hline, hc⟩ := hcomment.exists_mem hmem
      exact hfeed line (List.mem_append_right front hline) hc
    obtain ⟨full, hfull⟩ := exists_source (List.forall_mem_append.2 ⟨hfeed, r.part.not_mem_closing⟩)
    obtain ⟨plain, hplain⟩ := exists_source (List.forall_mem_append.2
      ⟨List.forall_mem_append.2 ⟨(List.forall_mem_append.1 hfeed).1,
        List.forall_mem_singleton.2 hbehind⟩, r.part.not_mem_closing⟩)
    have hread := hsame hfull hplain
    rw [read, read, hfull, hplain] at hread
    exact step_skip_of_ofLines hfront hitem hcomment hread
  · rw [read, read, hfull, hplain]
    exact ofLines_of_step_skip hfront hitem hcomment hstep

end Behind

/-- A marker and its code behind a comment of two lines are lost. -/
theorem publish_behind_comment_of_marker :
    (∀ package link,
      publish "fun main() \x7b\n/* one\n two */ @Code f()\n\x7d\n".toList package link =
        publish "fun main() \x7b\n/* one\n two */\n\x7d\n".toList package link) ∧
      ¬ ∀ ⦃full plain : Text⦄ ⦃below : List Text⦄,
        sourceLines full = ["fun main() \x7b".toList]
          ++ ["/* one".toList, " two */ @Code f()".toList] ++ below →
        sourceLines plain = ["fun main() \x7b".toList] ++ [" @Code f()".toList] ++ below →
          read full = (read plain).mapError (Error.later (2 - 1)) := by
  have hcontent : sourceLines "fun main() \x7b\n/* one\n two */ @Code f()\n\x7d\n".toList =
      ["fun main() \x7b".toList] ++ ["/* one".toList, " two */ @Code f()".toList] ++
        [['\x7d']] := by
    decide +kernel
  have hsame : sourceLines "fun main() \x7b\n/* one\n two */\n\x7d\n".toList =
      ["fun main() \x7b".toList] ++ ["/* one".toList, " two */".toList] ++ [['\x7d']] := by
    decide +kernel
  have hfront : Reader.start.run ["fun main() \x7b".toList] = .ok ⟨1, .body, .item, .empty⟩ := rfl
  have hopens : Text.trim "/* one".toList = "/*".toList ++ " one".toList := by decide
  have hlong : ∀ behind : Text,
      IsComment ("/* one".toList :: [] ++ [" two */".toList ++ behind]) behind := by
    intro behind
    have hclose : Text.FirstAt "*/".toList (" two */".toList ++ behind) " two ".toList behind :=
      ⟨rfl, by decide⟩
    exact .long hopens (by decide) (List.forall_mem_nil _) hclose
  have hlost := publish_behind_comment hcontent hfront rfl (hlong " @Code f()".toList)
  refine ⟨hlost.1 (hlong []) rfl hsame, hlost.2.not.2 ?_⟩
  decide +kernel

/-- A directive behind a comment is lost; on a line of its own it is not. -/
theorem publish_directive_behind_comment :
    publish "/* c */ @file:URL(\"a\")\nfun main() \x7b\n\x7d\n".toList "examples".toList none =
        .ok ⟨.empty, [], [], []⟩ ∧
      publish "@file:URL(\"a\")\nfun main() \x7b\n\x7d\n".toList "examples".toList none =
        .ok ⟨(empty.addDirective "URL".toList "a".toList).directives, [], [], []⟩ := by
  constructor <;> decide +kernel

end Guidebook.Guide
