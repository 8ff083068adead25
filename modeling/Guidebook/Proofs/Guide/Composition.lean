import Guidebook.Guide.Publication
import Guidebook.Proofs.Guide.Reading
import Guidebook.Proofs.Text.Pieces

/-!
# Bodies Compose

Two guides with the same beginning, up to and with the line `fun main() {`, can be put together: the
body of one, then the body of the other, make up a body again, and what is published of it is what
is published of the two, one after the other.

The reason is that no item reaches beyond a body that is accepted by itself. The closing `}` ends a
body only where the reader is in the middle of nothing, so the lines before it are a stretch of
items, and stretches can be joined (`Guide.Items.append`).

## Main results

* `Guide.items_of_enters`: up to the body, a guide has items of the preamble and no block.
* `Guide.ofLines_body_iff`: behind such a beginning, the bodies that are accepted are the stretches
  of items of the body, and add their blocks to the guide.
* `Guide.page_of_append`, `Guide.codes_of_append`: pages and programs of guides put together.
* `Guide.publish_bodies`: **bodies compose**.
-/

namespace Guidebook

/-! ### Pages and programs of guides put together -/

/-- No section of a page is empty. -/
theorem Block.ne_nil_of_mem_sections {block : Block} {piece : Text}
    (h : piece ∈ block.sections) : piece ≠ [] := by
  cases block with
  | text prose =>
      by_cases hprose : prose = [] <;> simp_all [Block.sections]
  | media kind path =>
      rw [Block.sections, List.mem_singleton] at h
      subst h
      cases kind <;> exact List.append_ne_nil_of_right_ne_nil _ (List.cons_ne_nil _ _)
  | code kind content =>
      rw [Block.sections] at h
      split at h
      · rw [List.mem_singleton] at h
        subst h
        exact List.append_ne_nil_of_right_ne_nil _ (List.cons_ne_nil _ _)
      · simp at h

namespace Guide

/-- The page is empty just if there is no section. -/
theorem page_eq_nil_iff (guide : Guide) : guide.page = [] ↔ guide.sections = [] := by
  have hjoin : Text.join "\n\n".toList guide.sections = [] ↔ guide.sections = [] := by
    refine Text.join_eq_nil_iff fun piece hpiece => ?_
    obtain ⟨block, -, hblock⟩ := List.mem_flatMap.1 hpiece
    exact Block.ne_nil_of_mem_sections hblock
  rw [← hjoin, page]
  split <;> simp_all

/-- The page of a guide that has something to show. -/
theorem page_of_sections {guide : Guide} (h : guide.sections ≠ []) :
    guide.page = Text.join "\n\n".toList guide.sections ++ ['\n'] := by
  have hpage := (page_eq_nil_iff guide).not.2 h
  rw [page] at hpage ⊢
  split <;> simp_all

/-- **Pages of guides put together** are their pages with an empty line between them; a guide with
nothing to show leaves no trace. -/
theorem page_of_append {first second both : Guide}
    (h : both.blocks = first.blocks ++ second.blocks) :
    both.page =
      if first.page = [] then second.page
      else if second.page = [] then first.page
      else first.page ++ '\n' :: second.page := by
  have hsections : both.sections = first.sections ++ second.sections := by
    rw [sections, h, List.flatMap_append]
    rfl
  by_cases hfirst : first.sections = []
  · rw [if_pos ((page_eq_nil_iff first).2 hfirst), page, hsections, hfirst, List.nil_append]
    rfl
  · rw [if_neg ((page_eq_nil_iff first).not.2 hfirst)]
    by_cases hsecond : second.sections = []
    · rw [if_pos ((page_eq_nil_iff second).2 hsecond), page, hsections, hsecond, List.append_nil]
      rfl
    · have hboth : both.sections ≠ [] := by
        rw [hsections]
        exact List.append_ne_nil_of_left_ne_nil hfirst _
      rw [if_neg ((page_eq_nil_iff second).not.2 hsecond), page_of_sections hboth,
        page_of_sections hfirst, page_of_sections hsecond, hsections,
        Text.join_append hfirst hsecond]
      simp

/-- Programs of guides put together follow each other. -/
theorem codes_of_append {first second both : Guide}
    (h : both.blocks = first.blocks ++ second.blocks) (p : CodeKind → Bool) :
    both.codes p = first.codes p ++ second.codes p := by
  rw [codes, h, List.filterMap_append]
  rfl

/-! ### Items of one part -/

/-- The block that an addition is. -/
def Addition.block? : Addition → Option Block
  | .block b => some b
  | _ => none

/-- The place of a part among the parts. -/
def Part.rank : Part → Nat
  | .preamble => 0
  | .body => 1
  | .trailer => 2

/-- An item never goes back to an earlier part. -/
theorem Item.rank_le {part next : Part} {lines : List Text} {addition : Addition}
    (h : Item part lines addition next) : part.rank ≤ next.rank := by
  cases h <;> simp [Part.rank]

/-- Items one behind the other never go back to an earlier part. -/
theorem Items.rank_le {part last : Part} {lines : List Text} {additions : List Addition}
    (h : Items part lines additions last) : part.rank ≤ last.rank := by
  induction h with
  | nil part => exact le_refl _
  | cons head _ ih => exact le_trans head.rank_le ih

/-- The preamble holds no block. -/
theorem Items.blocks_of_preamble {part : Part} {lines : List Text} {additions : List Addition}
    (h : Items part lines additions .preamble) : additions.filterMap Addition.block? = [] := by
  generalize hlast : Part.preamble = last at h
  induction h with
  | nil _ => rfl
  | cons head tail ih =>
      subst hlast
      have hnext := tail.rank_le
      rw [List.filterMap_cons, ih rfl]
      cases head with
      | media _ _ => simp [Part.rank] at hnext
      | text _ => simp [Part.rank] at hnext
      | code _ => simp [Part.rank] at hnext
      | _ => rfl

/-- What items add changes the blocks of a guide by adding to them. -/
theorem blocks_addAll (guide : Guide) (additions : List Addition) :
    (guide.addAll additions).blocks = guide.blocks ++ additions.filterMap Addition.block? := by
  induction additions generalizing guide with
  | nil => simp
  | cons addition additions ih =>
      rw [addAll_cons, ih]
      cases addition <;>
        simp [add, addDirective, addImport, addBlock, Addition.block?, List.filterMap_cons]

/-- The items of the body change nothing but the blocks. -/
theorem Items.addAll_of_body {part last : Part} {lines : List Text} {additions : List Addition}
    (h : Items part lines additions last) (hpart : part = .body) (hlast : last = .body)
    (guide : Guide) :
    guide.addAll additions =
      { guide with blocks := guide.blocks ++ additions.filterMap Addition.block? } := by
  induction h generalizing guide with
  | nil _ => simp
  | @cons _ next _ _ _ addition _ head tail ih =>
      subst hpart
      have hnext : next = .body := by
        have hleave := tail.rank_le
        by_contra hne
        obtain ⟨-, -, -, rfl⟩ := head.close_of_body hne
        simp [hlast, Part.rank] at hleave
      subst hnext
      rw [addAll_cons, ih rfl hlast]
      cases head <;> simp [add, addBlock, Addition.block?, List.filterMap_cons]

/-! ### Entering the body -/

/-- Behind the lines, the reader `r` has just entered the body: the last of them took it there from
the preamble. -/
def EntersBody (lines : List Text) (r : Reader) : Prop :=
  ∃ (before : List Text) (last : Text) (earlier : Reader), lines = before ++ [last] ∧
    Reader.start.run before = .ok earlier ∧ earlier.part = .preamble ∧
    earlier.step last = .ok r ∧ r.part = .body

/-- The line that leads into the body adds nothing. -/
theorem Item.nothing_of_enters {lines : List Text} {addition : Addition}
    (h : Item .preamble lines addition .body) : addition = .nothing := by
  cases h with
  | main _ => rfl

/-- Up to the body, a guide has items of the preamble and no block. -/
theorem items_of_enters {lines : List Text} {r : Reader} (h : EntersBody lines r) :
    ∃ n, r = ⟨n, .body, .item, r.guide⟩ ∧ r.guide.blocks = [] ∧
      Reader.start.run lines = .ok r := by
  obtain ⟨before, last, ⟨eline, epart, epending, eguide⟩, rfl, hrun, hpart, hstep, hbody⟩ := h
  have hrest : Reader.start.run (before ++ [last]) = .ok r := by
    rw [Reader.run_append, hrun, Except.bind, Reader.run_singleton, hstep]
  obtain ⟨done, rest, additions, rfl, hdone, hpartial, hguide, hline⟩ :=
    Reader.run_reached (Reader.reached_nil 0 .preamble .empty) hrun
  simp only [List.nil_append, Nat.zero_add] at hpart hdone hpartial hguide hline
  subst hpart hguide hline
  rw [List.length_append] at hstep
  rcases Reader.step_partial hpartial hstep with ⟨addition, next, hitem, rfl⟩ | ⟨_, _, rfl⟩
  · simp only at hbody
    subst hbody
    rw [hitem.nothing_of_enters]
    refine ⟨_, rfl, ?_, hitem.nothing_of_enters ▸ hrest⟩
    rw [add, blocks_addAll, hdone.blocks_of_preamble]
    rfl
  · cases hbody

/-! ### Closing the body -/

/-- No comment ends with the line `}`. -/
theorem not_isSkip_close (lines : List Text) : ¬ IsSkip (lines ++ [['\x7d']]) := by
  intro h
  generalize heq : lines ++ [['\x7d']] = all at h
  have hlast := congrArg List.getLast? heq
  rw [List.getLast?_concat] at hlast
  cases h with
  | blank h =>
      obtain rfl : ['\x7d'] = _ := Option.some.inj hlast
      exact absurd h (by decide)
  | remark h =>
      obtain rfl : ['\x7d'] = _ := Option.some.inj hlast
      exact absurd h (by decide)
  | comment h _ =>
      obtain rfl : ['\x7d'] = _ := Option.some.inj hlast
      rw [show Text.trim ['\x7d'] = ['\x7d'] by decide] at h
      exact absurd (List.cons.inj h).1 (by decide)
  | longComment _ _ _ hclosed =>
      rw [List.getLast?_concat] at hlast
      obtain rfl := Option.some.inj hlast
      exact absurd hclosed (by decide)

/-- A reader for which the line `}` is the last of a guide stood in the body, in the middle of
nothing. -/
theorem Reader.items_of_close {n : Nat} {guide read : Guide} {lines : List Text} {r s : Reader}
    (hr : Reached n .body guide lines r) (hstep : r.step ['\x7d'] = .ok s)
    (hfinish : s.finish = .ok read) :
    ∃ additions, Items .body lines additions .body ∧ read = guide.addAll additions := by
  obtain ⟨done, rest, additions, rfl, hdone, hpartial, hguide, hline⟩ := hr
  obtain ⟨rline, rpart, rpending, rguide⟩ := r
  simp only at hdone hpartial hguide hline
  subst hguide hline
  rw [List.length_append, ← Nat.add_assoc] at hstep
  obtain ⟨hpending, hpart, hread⟩ := finish_eq_ok_iff.1 hfinish
  rcases step_partial hpartial hstep with ⟨addition, next, hitem, rfl⟩ | ⟨pending, hleft, rfl⟩
  · simp only at hpart
    subst hpart
    cases rpart with
    | preamble => exact absurd hdone.rank_le (by decide)
    | body =>
        obtain ⟨line, hlines, -, -⟩ := hitem.close_of_body (by decide)
        have hrest : rest = [] := by simpa using congrArg List.length hlines
        subst hrest
        have hnothing : addition = .nothing := by
          cases hitem with
          | close _ => rfl
        subst hnothing
        rw [← hread, List.append_nil]
        exact ⟨additions, hdone, rfl⟩
    | trailer => exact absurd hitem.skip_of_trailer.1 (not_isSkip_close rest)
  · simp only at hpending
    subst hpending
    generalize hlast : rest ++ [['\x7d']] = all at hleft
    cases hleft
    simp at hlast

/-- **Bodies are stretches of items.** Behind the lines that lead into the body, a body is accepted
with its closing `}` exactly if its lines are items of the body, and the guide gains what they
add. -/
theorem ofLines_body_iff {before body : List Text} {n : Nat} {guide read : Guide}
    (h : Reader.start.run before = .ok ⟨n, .body, .item, guide⟩) :
    ofLines (before ++ body ++ [['\x7d']]) = .ok read ↔
      ∃ additions, Items .body body additions .body ∧ read = guide.addAll additions := by
  have hread : ofLines (before ++ body ++ [['\x7d']]) =
      ((Reader.run ⟨n, .body, .item, guide⟩ body).bind fun r => r.step ['\x7d']).bind
        Reader.finish := by
    simp only [ofLines, List.append_assoc, Reader.run_append, h, Except.bind, bind,
      Reader.run_singleton]
  rw [hread]
  constructor
  · intro hok
    cases hrun : Reader.run ⟨n, .body, .item, guide⟩ body with
    | error e => simp [hrun, Except.bind] at hok
    | ok r =>
        cases hstep : r.step ['\x7d'] with
        | error e => simp [hrun, hstep, Except.bind] at hok
        | ok s =>
            rw [hrun, Except.bind, hstep, Except.bind] at hok
            exact Reader.items_of_close (Reader.run_reached (Reader.reached_nil n .body guide) hrun)
              hstep hok
  · rintro ⟨additions, hitems, rfl⟩
    rw [Reader.run_items hitems, Except.bind, ← Reader.run_singleton]
    have hclose : Item .body [['\x7d']] .nothing .trailer := .close (by decide)
    rw [Reader.run_item hclose]
    rfl

/-! ### Publishing -/

/-- A source is published exactly if it is a guide. -/
theorem publish_eq_ok_iff {content package : Text} {link : Option PublicLink} {p : Publication} :
    publish content package link = .ok p ↔
      ∃ guide, read content = .ok guide ∧ p = guide.publication package link := by
  rw [publish]
  cases read content with
  | error e => simp
  | ok guide => simp [eq_comm]

/-- A source is rejected at a line that cannot be read. -/
theorem publish_of_step_error {content line : Text} {front below : List Text} {r : Reader}
    {e : Error} (hcontent : sourceLines content = front ++ line :: below)
    (hfront : Reader.start.run front = .ok r) (hstep : r.step line = .error e) (package : Text)
    (link : Option PublicLink) : publish content package link = .error e.toRejection := by
  have hread : read content = .error e := by
    rw [read, hcontent, ofLines_append hfront, Reader.run_cons, hstep]
    rfl
  rw [publish, hread]

/-- A program with a link is the program without one behind the comment that holds the link. -/
theorem program_some (package : Text) (imports : List Text) (link code : Text) :
    program package imports (some link) code =
      linkComment (some link) ++ program package imports none code := by
  have hnone : linkComment none = [] := rfl
  simp only [program, hnone, List.nil_append, List.append_assoc]

/-- **Bodies compose.** Take the lines that lead into the body of a guide, and two bodies each of
which is accepted behind them with a closing `}`. Then one body and behind it the other are accepted
too. The directives are those of the lines before, the programs are those of the one and then those
of the other, and the pages follow each other with an empty line between them unless one is empty.
With a public address, the links of the second go on counting where those of the first end. -/
theorem publish_bodies {before first second : List Text} {r : Reader}
    {contentFirst contentSecond content package : Text} {a b : Publication}
    (hbefore : EntersBody before r)
    (hfirst : sourceLines contentFirst = before ++ first ++ [['\x7d']])
    (hsecond : sourceLines contentSecond = before ++ second ++ [['\x7d']])
    (hboth : sourceLines content = before ++ (first ++ second) ++ [['\x7d']])
    (ha : publish contentFirst package none = .ok a)
    (hb : publish contentSecond package none = .ok b) :
    ∃ p, publish content package none = .ok p ∧
      p.directives = r.guide.directives ∧
      p.runnable = a.runnable ++ b.runnable ∧
      p.exported = a.exported ++ b.exported ∧
      p.page =
        (if a.page = [] then b.page else if b.page = [] then a.page else a.page ++ '\n' :: b.page) ∧
      ∀ link : PublicLink, ∃ linked q,
        publish contentFirst package (some link) = .ok linked ∧
        publish content package (some link) = .ok q ∧
        q.directives = p.directives ∧ q.page = p.page ∧ q.runnable = p.runnable ∧
        q.exported = linked.exported ++ b.exported.mapIdx fun index program =>
          linkComment (some (link.address (a.exported.length + index))) ++ program := by
  obtain ⟨n, hr, hblocks, hrun⟩ := items_of_enters hbefore
  rw [hr] at hrun
  obtain ⟨guideFirst, hreadFirst, rfl⟩ := publish_eq_ok_iff.1 ha
  obtain ⟨guideSecond, hreadSecond, rfl⟩ := publish_eq_ok_iff.1 hb
  have hguides := And.intro hreadFirst hreadSecond
  rw [read, hfirst, read, hsecond, ofLines_body_iff hrun, ofLines_body_iff hrun] at hguides
  obtain ⟨⟨addFirst, itemsFirst, hguideFirst⟩, addSecond, itemsSecond, hguideSecond⟩ := hguides
  have itemsBoth := itemsFirst.append itemsSecond
  have hread : read content = .ok (r.guide.addAll (addFirst ++ addSecond)) := by
    rw [read, hboth, ofLines_body_iff hrun]
    exact ⟨_, itemsBoth, rfl⟩
  generalize hguide : r.guide.addAll (addFirst ++ addSecond) = guide at hread
  rw [itemsFirst.addAll_of_body rfl rfl, hblocks, List.nil_append] at hguideFirst
  rw [itemsSecond.addAll_of_body rfl rfl, hblocks, List.nil_append] at hguideSecond
  rw [itemsBoth.addAll_of_body rfl rfl, hblocks, List.nil_append, List.filterMap_append] at hguide
  have happend : guide.blocks = guideFirst.blocks ++ guideSecond.blocks := by
    rw [← hguide, hguideFirst, hguideSecond]
  have hdirectives : guide.directives = r.guide.directives := by rw [← hguide]
  have himportsFirst : guideFirst.imports = guide.imports := by rw [← hguide, hguideFirst]
  have himportsSecond : guideSecond.imports = guide.imports := by rw [← hguide, hguideSecond]
  refine ⟨_, publish_eq_ok_iff.2 ⟨guide, hread, rfl⟩, hdirectives, ?_, ?_,
    page_of_append happend, ?_⟩
  · simp only [publication, codes_of_append happend, List.map_append, himportsFirst, himportsSecond]
  · simp only [publication, codes_of_append happend, List.mapIdx_append, himportsFirst,
      himportsSecond, Option.map_none]
  · intro link
    refine ⟨_, _, publish_eq_ok_iff.2 ⟨guideFirst, hreadFirst, rfl⟩,
      publish_eq_ok_iff.2 ⟨guide, hread, rfl⟩, rfl, rfl, rfl, ?_⟩
    simp only [publication, codes_of_append happend, List.mapIdx_append, List.mapIdx_mapIdx,
      List.length_mapIdx, himportsFirst, himportsSecond, Option.map_some, Option.map_none,
      Function.comp_def, ← program_some]
    simp only [Nat.add_comm]

/-- A body of prose and one of code, put together. -/
theorem publish_prose_then_code :
    ∃ p, publish "fun main() \x7b\n@Text \"\"\"One\"\"\"\n@Code\nf()\n\x7d\n".toList
        "examples".toList none = .ok p ∧
      p.page = "One\n\n```kotlin\nf()\n```\n".toList ∧
      p.exported = ["package examples\n\nfun main() \x7b\n    f()\n\x7d\n".toList] := by
  have hbefore : EntersBody ["fun main() \x7b".toList] ⟨1, .body, .item, .empty⟩ :=
    ⟨[], _, .start, rfl, rfl, rfl, by decide, rfl⟩
  have hfirst : sourceLines "fun main() \x7b\n@Text \"\"\"One\"\"\"\n\x7d\n".toList =
      ["fun main() \x7b".toList] ++ ["@Text \"\"\"One\"\"\"".toList] ++ [['\x7d']] := by
    decide +kernel
  have hsecond : sourceLines "fun main() \x7b\n@Code\nf()\n\x7d\n".toList =
      ["fun main() \x7b".toList] ++ ["@Code".toList, "f()".toList] ++ [['\x7d']] := by
    decide +kernel
  have ha : publish "fun main() \x7b\n@Text \"\"\"One\"\"\"\n\x7d\n".toList "examples".toList none =
      .ok ⟨.empty, "One\n".toList, [], []⟩ := by
    decide +kernel
  have hb : publish "fun main() \x7b\n@Code\nf()\n\x7d\n".toList "examples".toList none =
      .ok ⟨.empty, "```kotlin\nf()\n```\n".toList,
        ["package examples\n\nfun main() \x7b\n    f()\n\x7d\n".toList],
        ["package examples\n\nfun main() \x7b\n    f()\n\x7d\n".toList]⟩ := by
    decide +kernel
  have hboth : sourceLines "fun main() \x7b\n@Text \"\"\"One\"\"\"\n@Code\nf()\n\x7d\n".toList =
      ["fun main() \x7b".toList] ++
        (["@Text \"\"\"One\"\"\"".toList] ++ ["@Code".toList, "f()".toList]) ++ [['\x7d']] := by
    decide +kernel
  obtain ⟨p, hp, -, -, hexported, hpage, -⟩ :=
    publish_bodies hbefore hfirst hsecond hboth ha hb
  exact ⟨p, hp, hpage, hexported⟩

end Guide

end Guidebook
