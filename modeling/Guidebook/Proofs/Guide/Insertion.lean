import Guidebook.Guide.Publication
import Guidebook.Proofs.Guide.LineNumbers

/-!
# Blanks and Comments Between Items

Wherever the reader of a guide is in the middle of nothing, blank lines and comments can be
inserted. They leave the reader as it is but for the count of lines, so what follows is read as it
would be without them, only further down: the publication is the same, and so is the message of an
error, whose line has moved by the number of lines inserted.

## Main results

* `Guide.Reader.run_skips`: blanks and comments are read over.
* `Guide.ofLines_inserted`: the guide, or the error, with and without them.
* `Guide.publish_inserted`: **what is between items is invisible**.
-/

namespace Guidebook

/-- The rejection, further down by so many lines. -/
def Rejection.later (count : Nat) (rejection : Rejection) : Rejection :=
  ⟨count + rejection.line, rejection.message⟩

namespace Guide

variable {front rest : List Text} {skips : List (List Text)} {r : Reader}

/-- Blanks and comments are read over. -/
theorem Reader.run_skips (hskips : ∀ lines ∈ skips, IsSkip lines) (n : Nat) (part : Part)
    (guide : Guide) :
    run ⟨n, part, .item, guide⟩ skips.flatten =
      .ok ⟨n + skips.flatten.length, part, .item, guide⟩ := by
  induction skips generalizing n with
  | nil => rfl
  | cons lines skips ih =>
      obtain ⟨hlines, hskips⟩ := List.forall_mem_cons.1 hskips
      rw [List.flatten_cons, run_append, run_skip hlines, Except.bind, ih hskips,
        List.length_append, Nat.add_assoc]

/-- Blanks and comments leave the reader further down, and as it was otherwise. -/
theorem Reader.run_skips_later (hitem : r.pending = .item)
    (hskips : ∀ lines ∈ skips, IsSkip lines) :
    r.run skips.flatten = .ok (r.later skips.flatten.length) := by
  obtain ⟨n, part, pending, guide⟩ := r
  subst hitem
  rw [run_skips hskips, Nat.add_comm]
  rfl

/-- Lines that lead to the same reader further down, and what is read behind them. -/
theorem ofLines_later {other : List Text} {count : Nat} (hne : front ++ rest ≠ [])
    (hfront : Reader.start.run front = .ok r)
    (hother : Reader.start.run other = .ok (r.later count)) :
    ofLines (other ++ rest) = (ofLines (front ++ rest)).mapError (Error.later count) := by
  rw [ofLines_append hother, ofLines_append hfront, Reader.run_later]
  cases hrest : r.run rest with
  | error e => rfl
  | ok s =>
      have hboth : Reader.start.run (front ++ rest) = .ok s := by
        rw [Reader.run_append, hfront]
        exact hrest
      refine Reader.finish_later _ s ?_
      rw [line_of_run hboth]
      exact List.length_eq_zero_iff.not.2 hne

/-- **The guide with blanks and comments inserted** is the guide without them, or the error, further
down. -/
theorem ofLines_inserted (hne : front ++ rest ≠ []) (hfront : Reader.start.run front = .ok r)
    (hitem : r.pending = .item) (hskips : ∀ lines ∈ skips, IsSkip lines) :
    ofLines (front ++ skips.flatten ++ rest) =
      (ofLines (front ++ rest)).mapError (Error.later skips.flatten.length) := by
  refine ofLines_later hne hfront ?_
  rw [Reader.run_append, hfront]
  exact Reader.run_skips_later hitem hskips

/-- If reading one source differs from reading another in the line of its error alone, so does
publishing it. -/
theorem publish_eq_mapError {content other : Text} {count : Nat}
    (h : read other = (read content).mapError (Error.later count)) (package : Text)
    (link : Option PublicLink) :
    publish other package link =
      (publish content package link).mapError (Rejection.later count) := by
  rw [publish, publish, h]
  cases read content <;> rfl

/-- **What is between items is invisible.** Take a source that is not empty, a place in it at
which the reader is in the middle of nothing, and the source with any blank lines and comments
inserted there. What is published of it is what is published of the source without them; or it is
rejected with the same message, at a line that has moved by the number of lines inserted. A
rejection is one of the lines behind the place, or says that `fun main` or its end is missing
where the source ends. -/
theorem publish_inserted {content inserted : Text} (hne : content ≠ [])
    (hcontent : sourceLines content = front ++ rest)
    (hinserted : sourceLines inserted = front ++ skips.flatten ++ rest)
    (hfront : Reader.start.run front = .ok r) (hitem : r.pending = .item)
    (hskips : ∀ lines ∈ skips, IsSkip lines) :
    (∀ package link, publish inserted package link =
      (publish content package link).mapError (Rejection.later skips.flatten.length)) ∧
    ∀ e, read content = .error e →
      front.length < e.line ∧ e.line ≤ (front ++ rest).length ∨
        e.line = (front ++ rest).length ∧ (e.fault = .mainMissing ∨ e.fault = .mainOpen) := by
  have hlines : front ++ rest ≠ [] := hcontent ▸ sourceLines_eq_nil_iff.not.2 hne
  constructor
  · have hread : read inserted = (read content).mapError (Error.later skips.flatten.length) := by
      rw [read, read, hcontent, hinserted]
      exact ofLines_inserted hlines hfront hitem hskips
    exact publish_eq_mapError hread
  · intro e he
    have hline := line_of_run hfront
    obtain ⟨n, part, pending, guide⟩ := r
    simp only at hitem hline
    subst hitem hline
    rw [read, hcontent, ofLines_append hfront] at he
    have hpos := List.length_pos_iff.2 hlines
    rw [List.length_append] at hpos ⊢
    have herror := Reader.line_of_error he
    rwa [max_eq_right (by omega)] at herror

/-- A comment of two lines, an empty line and a remark in front of a marker that there is not. -/
theorem publish_inserted_of_unknownMarker :
    publish "fun main() \x7b\n@Cod\n\x7d\n".toList "examples".toList none =
      .error ⟨2, "unknown annotation `@Cod`".toList⟩ ∧
    publish "fun main() \x7b\n/* one\n two */\n\n// three\n@Cod\n\x7d\n".toList
        "examples".toList none =
      .error ⟨6, "unknown annotation `@Cod`".toList⟩ := by
  have hplain : publish "fun main() \x7b\n@Cod\n\x7d\n".toList "examples".toList none =
      .error ⟨2, "unknown annotation `@Cod`".toList⟩ := by
    decide +kernel
  have hcontent : sourceLines "fun main() \x7b\n@Cod\n\x7d\n".toList =
      ["fun main() \x7b".toList] ++ ["@Cod".toList, ['\x7d']] := by
    decide +kernel
  have hinserted :
      sourceLines "fun main() \x7b\n/* one\n two */\n\n// three\n@Cod\n\x7d\n".toList =
        ["fun main() \x7b".toList]
          ++ [["/* one".toList, " two */".toList], [[]], ["// three".toList]].flatten
          ++ ["@Cod".toList, ['\x7d']] := by
    decide +kernel
  have hskips : ∀ lines ∈ [["/* one".toList, " two */".toList], [[]], ["// three".toList]],
      IsSkip lines := by
    have hopens : Text.trim "/* one".toList = "/*".toList ++ " one".toList := by decide
    have hcomment : IsSkip ("/* one".toList :: [] ++ [" two */".toList]) :=
      .longComment hopens (by decide) (List.forall_mem_nil _) (by decide)
    simp only [List.forall_mem_cons]
    exact ⟨hcomment, .blank rfl, .remark (by decide), List.forall_mem_nil _⟩
  have hfront : Reader.start.run ["fun main() \x7b".toList] = .ok ⟨1, .body, .item, .empty⟩ := rfl
  refine ⟨hplain, ?_⟩
  rw [(publish_inserted (by decide) hcontent hinserted hfront rfl hskips).1, hplain]
  rfl

end Guide

end Guidebook
