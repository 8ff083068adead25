import Guidebook.Proofs.Guide.CodeRouting
import Guidebook.Proofs.Text.Pieces

/-!
# Reading Fences Back

A reader of a page that goes from line to line finds the code between fences: a line that begins,
after at most three blanks, with three backticks opens a fence, and the next such line of nothing
but backticks and white space closes it. The fences of a page are always the same, and neither prose
nor code nor the path of an image is written in any other way than it stands in the guide. So if
prose or a path holds a line that opens a fence, or code one that closes it, the code that is found
can be another one.

The page is read section by section. What is not code is passed over as long as it opens no fence,
and from code its lines are collected as long as none closes the fence. The first code with a line
that does is cut off in front of it.

## Main results

* `Markdown.fencedFrom_of_calm`, `Markdown.fencedFrom_of_open`: lines outside and inside of fences.
* `Markdown.fencedFrom_sections_iff`: reading sections back.
* `Guide.page_fenced_iff`: **when the code shown can be read back** from the page.
-/

namespace Guidebook

/-! ### Fences -/

namespace Markdown

/-- Whether a line begins, after at most three blanks, with three backticks. -/
def opensFence (line : Text) : Bool :=
  (List.range 4).any fun width => (List.replicate width ' ' ++ "```".toList).isPrefixOf line

/-- Whether a line closes a fence: it could open one, and holds backticks and white space only. -/
def closesFence (line : Text) : Bool :=
  opensFence line && line.all fun c => c = '`' || Text.isSpace c

/-- The texts between fences, from a place on at which there is no fence, or at which the lines
`inside` stand behind the last one. A fence that is not closed goes on to the end. -/
def fencedFrom : Option (List Text) → List Text → List Text
  | none, [] => []
  | none, line :: more => fencedFrom (if opensFence line then some [] else none) more
  | some inside, [] => [Text.join ['\n'] inside]
  | some inside, line :: more =>
    if closesFence line then Text.join ['\n'] inside :: fencedFrom none more
    else fencedFrom (some (inside ++ [line])) more

/-- The texts between the fences of a page, in order. -/
def fenced (page : Text) : List Text :=
  fencedFrom none (Text.splitOn '\n' page)

/-- A line opens a fence if it begins with at most three blanks and three backticks. -/
theorem opensFence_iff {line : Text} :
    opensFence line = true ↔
      ∃ width < 4, List.replicate width ' ' ++ "```".toList <+: line := by
  simp only [opensFence, List.any_eq_true, List.mem_range, List.isPrefixOf_iff_prefix]

/-- Whether a line opens a fence is told by what it begins with. -/
theorem opensFence_append {line tail : Text} (htail : ∀ c ∈ tail.head?, c ≠ ' ' ∧ c ≠ '`')
    (h : opensFence (line ++ tail) = true) : opensFence line = true := by
  rw [opensFence_iff] at h ⊢
  obtain ⟨width, hwidth, hprefix⟩ := h
  refine ⟨width, hwidth, ?_⟩
  rcases List.prefix_or_prefix_of_prefix hprefix (List.prefix_append line tail) with hshort | hlong
  · exact hshort
  obtain ⟨more, hmore⟩ := hlong
  rw [← hmore, List.prefix_append_right_inj] at hprefix
  cases more with
  | nil => exact ⟨[], by rw [← hmore, List.append_nil, List.append_nil]⟩
  | cons c more =>
      obtain ⟨rest, rfl⟩ := hprefix
      have hc : c ∈ List.replicate width ' ' ++ "```".toList := by
        rw [← hmore]
        simp
      obtain ⟨hblank, hbacktick⟩ := htail c rfl
      rcases List.mem_append.1 hc with hc | hc
      · exact absurd (List.eq_of_mem_replicate hc) hblank
      · exact absurd (by simpa using hc) hbacktick

/-! ### From line to line -/

section Lines

variable {block : List Text} (more : List Text)

/-- Lines that open no fence are passed over. -/
theorem fencedFrom_of_calm (h : ∀ line ∈ block, opensFence line = false) :
    fencedFrom none (block ++ more) = fencedFrom none more := by
  induction block with
  | nil => rfl
  | cons line block ih =>
      obtain ⟨hline, hblock⟩ := List.forall_mem_cons.1 h
      rw [List.cons_append, fencedFrom, hline]
      exact ih hblock

/-- Lines that do not close the fence are collected. -/
theorem fencedFrom_of_open (inside : List Text) (h : ∀ line ∈ block, closesFence line = false) :
    fencedFrom (some inside) (block ++ more) = fencedFrom (some (inside ++ block)) more := by
  induction block generalizing inside with
  | nil => rw [List.nil_append, List.append_nil]
  | cons line block ih =>
      obtain ⟨hline, hblock⟩ := List.forall_mem_cons.1 h
      rw [List.cons_append, fencedFrom, hline, if_neg Bool.false_ne_true, ih _ hblock,
        List.append_assoc, List.singleton_append]

end Lines

/-! ### Sections -/

/-- The lines of the sections of a page, each with an empty line behind it. -/
def sectionLines (sections : List PageSection) : List Text :=
  sections.flatMap fun piece => Text.splitOn '\n' piece.markup ++ [[]]

/-- The lines of the first section stand first, with an empty line behind them. -/
theorem sectionLines_cons (piece : PageSection) (sections : List PageSection) :
    sectionLines (piece :: sections) =
      Text.splitOn '\n' piece.markup ++ [] :: sectionLines sections := by
  rw [sectionLines, List.flatMap_cons, List.append_assoc]
  rfl

/-- The lines of a page are those of its sections. -/
theorem splitOn_pageOf {sections : List PageSection} (h : sections ≠ []) :
    Text.splitOn '\n' (pageOf sections) = sectionLines sections := by
  rw [pageOf, if_neg h]
  induction sections with
  | nil => exact absurd rfl h
  | cons piece sections ih =>
      rw [sectionLines_cons]
      cases sections with
      | nil => exact Text.splitOn_append '\n' piece.markup []
      | cons next sections =>
          have hjoin : Text.join "\n\n".toList ((piece :: next :: sections).map (·.markup))
                ++ ['\n'] =
              piece.markup ++ '\n' :: '\n' ::
                (Text.join "\n\n".toList ((next :: sections).map (·.markup)) ++ ['\n']) := by
            simp [Text.join]
          rw [hjoin, Text.splitOn_append, Text.splitOn, if_pos rfl, ih (List.cons_ne_nil _ _)]

/-- The fences of a page are looked for in the lines of its sections. -/
theorem fenced_pageOf (sections : List PageSection) :
    fenced (pageOf sections) = fencedFrom none (sectionLines sections) := by
  by_cases h : sections = []
  · rw [h]
    rfl
  · rw [fenced, splitOn_pageOf h]

/-- The lines of code between its fences. -/
theorem splitOn_fence (code : Text) :
    Text.splitOn '\n' (PageSection.fence code).markup =
      "```kotlin".toList :: (Text.splitOn '\n' code ++ ["```".toList]) := by
  have hmarkup : (PageSection.fence code).markup =
      "```kotlin".toList ++ '\n' :: (code ++ '\n' :: "```".toList) := rfl
  have hopening : '\n' ∉ "```kotlin".toList := by decide
  have hclosing : '\n' ∉ "```".toList := by decide
  rw [hmarkup, Text.splitOn_append, Text.splitOn_append, Text.splitOn_of_not_mem hopening,
    Text.splitOn_of_not_mem hclosing]
  rfl

/-- Code is read up to its first line that closes a fence, or to its end. -/
theorem fencedFrom_fence (code : Text) (more : List Text) :
    fencedFrom none (Text.splitOn '\n' (PageSection.fence code).markup ++ more) =
      fencedFrom (some []) (Text.splitOn '\n' code ++ "```".toList :: more) := by
  have hopens : opensFence "```kotlin".toList = true := by decide
  rw [splitOn_fence, List.cons_append, fencedFrom, hopens, List.append_assoc]
  rfl

/-- Code of which no line closes a fence is found. -/
theorem fencedFrom_fence_of_open {code : Text}
    (h : ∀ line ∈ Text.splitOn '\n' code, closesFence line = false) (more : List Text) :
    fencedFrom none (Text.splitOn '\n' (PageSection.fence code).markup ++ more) =
      code :: fencedFrom none more := by
  have hcloses : closesFence "```".toList = true := by decide
  rw [fencedFrom_fence, fencedFrom_of_open _ _ h, fencedFrom, if_pos hcloses, List.nil_append,
    Text.join_splitOn]

/-- Some of the lines of a text do not make up the text. -/
theorem join_ne_of_splitOn {code line : Text} {before behind : List Text}
    (h : Text.splitOn '\n' code = before ++ line :: behind) (hline : line ≠ []) :
    Text.join ['\n'] before ≠ code := by
  rintro rfl
  by_cases hnil : before = []
  · subst hnil
    exact hline (List.cons.inj h).1.symm
  · have hfeeds : ∀ piece ∈ before, '\n' ∉ piece := fun piece hpiece =>
      Text.not_mem_of_mem_splitOn (h ▸ List.mem_append_left _ hpiece)
    rw [Text.splitOn_join hnil hfeeds] at h
    exact absurd (List.self_eq_append_right.1 h) (List.cons_ne_nil _ _)

/-- Of other code, less is found. -/
theorem fencedFrom_fence_of_closes {code : Text}
    (h : ¬ ∀ line ∈ Text.splitOn '\n' code, closesFence line = false) (more : List Text) :
    ∃ found others, found ≠ code ∧
      fencedFrom none (Text.splitOn '\n' (PageSection.fence code).markup ++ more) =
        found :: others := by
  have hsome : ((Text.splitOn '\n' code).find? closesFence).isSome = true := by
    rw [List.find?_isSome]
    simpa using h
  obtain ⟨line, hfind⟩ := Option.isSome_iff_exists.1 hsome
  obtain ⟨hline, before, behind, hsplit, hbefore⟩ := List.find?_eq_some_iff_append.1 hfind
  have hopen : ∀ l ∈ before, closesFence l = false := fun l hl => by simpa using hbefore l hl
  have hne : line ≠ [] := by
    rintro rfl
    exact absurd hline (by decide)
  have hfound : fencedFrom none (Text.splitOn '\n' (PageSection.fence code).markup ++ more) =
      Text.join ['\n'] before :: fencedFrom none (behind ++ "```".toList :: more) := by
    rw [fencedFrom_fence, hsplit, List.append_assoc, fencedFrom_of_open _ _ hopen,
      List.cons_append, fencedFrom, if_pos hline, List.nil_append]
  exact ⟨_, _, join_ne_of_splitOn hsplit hne, hfound⟩

/-- The section is code, or no line of it opens a fence. -/
def IsCalm : PageSection → Prop
  | .fence _ => True
  | .other markup => ∀ line ∈ Text.splitOn '\n' markup, opensFence line = false

/-- **Reading sections back.** The code between fences is found exactly if no line of it closes a
fence. -/
theorem fencedFrom_sections_iff {sections : List PageSection}
    (h : ∀ piece ∈ sections, IsCalm piece) :
    fencedFrom none (sectionLines sections) = sections.filterMap PageSection.code? ↔
      ∀ code ∈ sections.filterMap PageSection.code?, ∀ line ∈ Text.splitOn '\n' code,
        closesFence line = false := by
  induction sections with
  | nil => exact iff_of_true rfl (List.forall_mem_nil _)
  | cons piece sections ih =>
      obtain ⟨hpiece, hsections⟩ := List.forall_mem_cons.1 h
      have hempty : fencedFrom none ([] :: sectionLines sections) =
          fencedFrom none (sectionLines sections) := rfl
      rw [sectionLines_cons]
      cases piece with
      | other markup =>
          have hpassed : fencedFrom none
              (Text.splitOn '\n' (PageSection.other markup).markup ++ [] :: sectionLines sections) =
                fencedFrom none (sectionLines sections) :=
            fencedFrom_of_calm ([] :: sectionLines sections) hpiece
          rw [hpassed]
          exact ih hsections
      | fence code =>
          have hcodes : (PageSection.fence code :: sections).filterMap PageSection.code? =
              code :: sections.filterMap PageSection.code? := rfl
          rw [hcodes, List.forall_mem_cons]
          by_cases hcode : ∀ line ∈ Text.splitOn '\n' code, closesFence line = false
          · rw [fencedFrom_fence_of_open hcode, hempty, List.cons_inj_right, ih hsections]
            exact (and_iff_right hcode).symm
          · obtain ⟨found, others, hne, hfound⟩ := fencedFrom_fence_of_closes hcode
              ([] :: sectionLines sections)
            rw [hfound]
            exact iff_of_false (fun heq => hne (List.cons.inj heq).1) fun hall => hcode hall.1

end Markdown

/-! ### Guides -/

/-- Whether no line of a text, and no line of the path of an image or video behind its first, opens
a fence. -/
def Block.opensNoFence : Block → Bool
  | .text prose => (Text.splitOn '\n' prose).all fun line => !Markdown.opensFence line
  | .media _ path => (Text.splitOn '\n' path).tail.all fun line => !Markdown.opensFence line
  | .code _ _ => true

namespace Markdown

/-- A path between markup of one line opens no fence but by its own lines. -/
theorem opensFence_between {front path tail : Text}
    (hpath : ∀ line ∈ (Text.splitOn '\n' path).tail, opensFence line = false)
    (hfront : '\n' ∉ front) (hopens : ∀ more, opensFence (front ++ more) = false)
    (htail : '\n' ∉ tail) (hhead : ∀ c ∈ tail.head?, c ≠ ' ' ∧ c ≠ '`') :
    ∀ line ∈ Text.splitOn '\n' (front ++ path ++ tail), opensFence line = false := by
  intro line hline
  obtain ⟨more, rfl⟩ | ⟨other, hother, rfl | rfl⟩ :=
    Text.exists_of_mem_splitOn_between hfront htail hline
  · exact hopens more
  · exact hpath line hother
  · rw [Bool.eq_false_iff]
    intro hopen
    exact absurd (opensFence_append hhead hopen) (Bool.eq_false_iff.1 (hpath other hother))

/-- The markup of an image or video opens no fence but by the lines of its path. -/
theorem isCalm_render (kind : MediaKind) {path : Text}
    (hpath : ∀ line ∈ (Text.splitOn '\n' path).tail, opensFence line = false) :
    IsCalm (.other (kind.render path)) := by
  cases kind with
  | image =>
      refine opensFence_between hpath (by decide) (fun more => rfl) (by decide) ?_
      intro c hc
      obtain rfl := Option.some.inj hc
      decide
  | video =>
      have hrender : MediaKind.video.render path =
          "<video controls>".toList ++ '\n' :: ((indentation ++ "<source src=\"".toList) ++
            (path ++ ("\" type=\"video/mp4\">".toList ++ '\n' :: "</video>".toList))) := rfl
      have hfirst : '\n' ∉ "<video controls>".toList := by decide
      have hlast : '\n' ∉ "</video>".toList := by decide
      have hsource : ∀ line ∈ Text.splitOn '\n'
          ((indentation ++ "<source src=\"".toList) ++ path ++ "\" type=\"video/mp4\">".toList),
          opensFence line = false := by
        refine opensFence_between hpath (by decide) (fun more => rfl) (by decide) ?_
        intro c hc
        obtain rfl := Option.some.inj hc
        decide
      rw [IsCalm, hrender, Text.splitOn_append, ← List.append_assoc path, ← List.append_assoc,
        ← List.append_assoc, Text.splitOn_append, Text.splitOn_of_not_mem hfirst,
        Text.splitOn_of_not_mem hlast]
      simp only [List.forall_mem_append, List.forall_mem_singleton]
      exact ⟨rfl, hsource, rfl⟩

/-- A block that opens no fence has a section that opens none. -/
theorem isCalm_of_section? {block : Block} {piece : PageSection} (h : block.opensNoFence = true)
    (hpiece : block.section? = some piece) : IsCalm piece := by
  cases block with
  | text prose =>
      rw [Block.section?] at hpiece
      split at hpiece
      · cases hpiece
      · obtain rfl := Option.some.inj hpiece
        simpa [Block.opensNoFence, IsCalm] using h
  | media kind path =>
      obtain rfl := Option.some.inj hpiece
      exact isCalm_render kind (by simpa [Block.opensNoFence] using h)
  | code kind content =>
      rw [Block.section?] at hpiece
      split at hpiece
      · obtain rfl := Option.some.inj hpiece
        trivial
      · cases hpiece

end Markdown

namespace Guide

/-- The code between the fences of the sections is the code shown. -/
theorem codes_isShown (guide : Guide) :
    guide.codes CodeKind.isShown =
      (guide.blocks.filterMap Block.section?).filterMap PageSection.code? := by
  rw [codes_eq, filterMap_code_section]

/-- **When the code shown can be read back.** Take an accepted source of which no line of a text,
and no line of the path of an image or video behind its first, opens a fence. A reader of its page
finds exactly the codes shown between the fences, in their order, if and only if no line of these
codes closes a fence. -/
theorem page_fenced_iff {content : Text} {guide : Guide} (hread : read content = .ok guide)
    (hcalm : ∀ block ∈ guide.blocks, block.opensNoFence = true) (package : Text)
    (link : Option PublicLink) :
    ∃ p, publish content package link = .ok p ∧
      (Markdown.fenced p.page = guide.codes CodeKind.isShown ↔
        ∀ code ∈ guide.codes CodeKind.isShown, ∀ line ∈ Text.splitOn '\n' code,
          Markdown.closesFence line = false) := by
  have hsections : ∀ piece ∈ guide.blocks.filterMap Block.section?, Markdown.IsCalm piece := by
    intro piece hpiece
    obtain ⟨block, hblock, hsection⟩ := List.mem_filterMap.1 hpiece
    exact Markdown.isCalm_of_section? (hcalm block hblock) hsection
  refine ⟨_, publish_eq_ok_iff.2 ⟨guide, hread, rfl⟩, ?_⟩
  rw [codes_isShown, show (guide.publication package link).page = guide.page from rfl,
    page_eq_pageOf, Markdown.fenced_pageOf]
  exact Markdown.fencedFrom_sections_iff hsections

/-- A guide with prose, a video and code in which a line begins with three backticks. -/
def guideWithBackticks : Text :=
  "fun main() \x7b\n@Text \"\"\"One\"\"\"\n@Media.Video \"a.mp4\"\n".toList
    ++ "@Code.Block\nf(\"\"\"\n``` two\n\"\"\")\n\x7d\n".toList

/-- Its code is read back. -/
theorem page_fenced_of_guideWithBackticks :
    ∃ p, publish guideWithBackticks "examples".toList none = .ok p ∧
      Markdown.fenced p.page = ["f(\"\"\"\n``` two\n\"\"\")".toList] := by
  have hread : read guideWithBackticks =
      .ok ⟨.empty, [], [.text "One".toList, .media .video "a.mp4".toList,
        .code .block "f(\"\"\"\n``` two\n\"\"\")".toList]⟩ := by
    decide +kernel
  obtain ⟨p, hp, hfenced⟩ :=
    page_fenced_iff hread (by decide +kernel) "examples".toList none
  exact ⟨p, hp, hfenced.2 (by decide +kernel)⟩

/-- Code with a line of three backticks is cut off there; and the path of an image can hold a line
that opens a fence where there is no code. -/
theorem page_not_fenced :
    (∃ guide p,
      read "fun main() \x7b\n@Code.Block\nf(\"\"\"\n```\n\"\"\")\n\x7d\n".toList = .ok guide ∧
      (∀ block ∈ guide.blocks, block.opensNoFence = true) ∧
      publish "fun main() \x7b\n@Code.Block\nf(\"\"\"\n```\n\"\"\")\n\x7d\n".toList
        "examples".toList none = .ok p ∧
      Markdown.fenced p.page ≠ guide.codes CodeKind.isShown) ∧
    ∃ guide p,
      read "fun main() \x7b\n@Media.Image \"a\\n```\"\n\x7d\n".toList = .ok guide ∧
      guide.blocks = [.media .image "a\n```".toList] ∧
      publish "fun main() \x7b\n@Media.Image \"a\\n```\"\n\x7d\n".toList
        "examples".toList none = .ok p ∧
      Markdown.fenced p.page ≠ guide.codes CodeKind.isShown := by
  constructor
  · refine ⟨⟨.empty, [], [.code .block "f(\"\"\"\n```\n\"\"\")".toList]⟩,
      ⟨.empty, "```kotlin\nf(\"\"\"\n```\n\"\"\")\n```\n".toList, [], []⟩, ?_, ?_, ?_, ?_⟩
    all_goals decide +kernel
  · refine ⟨⟨.empty, [], [.media .image "a\n```".toList]⟩,
      ⟨.empty, "![](a\n```)\n".toList, [], []⟩, ?_, rfl, ?_, ?_⟩
    all_goals decide +kernel

end Guide

end Guidebook
