import Guidebook.Proofs.Guide.Composition
import Guidebook.Proofs.Guide.SourceLines
import Guidebook.Proofs.Text.Dedenting
import Mathlib.Data.List.Forall2

/-!
# Where Code Goes

The code of a block may be shown on the page, run and exported, as its marker says. It is the same
code everywhere: what stands between the fences of its section is what is left of the body of each
of its programs when the body is dedented.

The code is made of dedented lines, also where its first line stands behind the marker and is not
dedented with the others. A program has these lines behind one step of indentation, but for the
empty ones, so dedenting finds them again.

## Main results

* `Guide.Items.exists_codeLines`: the code of a block is made of dedented lines.
* `isProgramOf_program`: dedenting the body of a program gives its code back.
* `Guide.publish_codes`: **the code shown, run and exported is the same**.
-/

namespace Guidebook

/-! ### Code and its lines -/

/-- The code is made of the given lines, which are dedented and can be lines of a source. -/
structure CodeLines (code : Text) (block : List Text) : Prop where
  nonempty : block ≠ []
  dedented : Text.IsDedented block
  isLine : ∀ line ∈ block, Text.IsLine line
  code_eq : code = Text.join ['\n'] block

/-- The lines of a code are those that it is made of. -/
theorem CodeLines.lines_eq {code : Text} {block : List Text} (h : CodeLines code block) :
    Text.lines code = block := by
  rw [h.code_eq]
  refine Text.lines_join h.isLine fun line hline hnil => ?_
  have hblank := h.dedented.last line hline
  rw [hnil] at hblank
  exact absurd hblank (by decide)

namespace Guide

/-- A line is put in front of dedented lines, if there are any. -/
theorem join_cons_dedented {block : List Text} (h : Text.IsDedented block) (first : Text) :
    (if Text.join ['\n'] block = [] then first else first ++ '\n' :: Text.join ['\n'] block) =
      Text.join ['\n'] (first :: block) := by
  cases block with
  | nil => rfl
  | cons next rest =>
      have hnext : next ≠ [] := by
        rintro rfl
        exact absurd (h.first [] rfl) (by decide)
      have hjoin : Text.join ['\n'] (next :: rest) ≠ [] := by
        cases rest <;> simp [Text.join, hnext]
      rw [if_neg hjoin, Text.join]
      simp

/-- Code behind its marker has the dedented lines below it behind its first line. -/
theorem exists_codeLines_inline {first : Text} {more : List Text} (hne : first ≠ [])
    (htrimmed : Text.IsTrimmed first)
    (hlines : ∀ line ∈ first :: more, ∀ c, c = '\n' ∨ c = '\r' → c ∉ line) :
    ∃ block, CodeLines (Reader.codeOf true (first :: more)) block := by
  obtain ⟨hfirst, hmore⟩ := List.forall_mem_cons.1 hlines
  have hkept := Text.isDedented_dedentedLines more
  refine ⟨first :: Text.dedentedLines more, List.cons_ne_nil _ _,
    hkept.cons_flush (Text.isTrimmed_iff.1 htrimmed).1 hne,
    List.forall_mem_cons.2 ⟨Text.isLine_of_not_mem hfirst, fun l hl => ?_⟩, ?_⟩
  · obtain ⟨line, hline, hl⟩ := Text.exists_suffix_of_mem_dedentedLines hl
    exact Text.isLine_of_not_mem fun c hc hmem => hmore line hline c hc (hl.subset hmem)
  · exact join_cons_dedented hkept first

/-- Code below its marker is dedented as a whole. -/
theorem exists_codeLines_below {first : Text} {more : List Text}
    (hfirst : Text.isBlank first = false)
    (hlines : ∀ line ∈ first :: more, ∀ c, c = '\n' ∨ c = '\r' → c ∉ line) :
    ∃ block, CodeLines (Reader.codeOf false (first :: more)) block := by
  refine ⟨Text.dedentedLines (first :: more), fun hnil => ?_, Text.isDedented_dedentedLines _,
    fun l hl => ?_, Text.dedent_eq_join _⟩
  · have hblank := Text.dedentedLines_eq_nil_iff.1 hnil first List.mem_cons_self
    exact absurd hblank (by simp [hfirst])
  · obtain ⟨line, hline, hl⟩ := Text.exists_suffix_of_mem_dedentedLines hl
    exact Text.isLine_of_not_mem fun c hc hmem => hlines line hline c hc (hl.subset hmem)

/-- The code of a block is made of dedented lines, behind the marker and below it. -/
theorem IsCodeBlock.exists_codeLines {kind : CodeKind} {lines : List Text} {code : Text}
    (h : IsCodeBlock kind lines code)
    (hlines : ∀ line ∈ lines, ∀ c, c = '\n' ∨ c = '\r' → c ∉ line) :
    ∃ block, CodeLines code block := by
  obtain @⟨lead, more, inline, first, hlead, -, -⟩ := h
  have hcode : ∀ line ∈ first :: more, ∀ c, c = '\n' ∨ c = '\r' → c ∉ line := by
    refine List.forall_mem_cons.2 ⟨fun c hc hmem => ?_, fun line hline =>
      hlines line (List.mem_append_right lead hline)⟩
    obtain ⟨line, hline, hstands⟩ := hlead.mem_of_mem hmem
    exact hlines line (List.mem_append_left more hline) c hc hstands
  cases hlead with
  | inline hmarks hne =>
      obtain ⟨tail, -, -, -, rfl⟩ := hmarks
      exact exists_codeLines_inline hne (Text.isTrimmed_trim tail) hcode
  | below _ _ hblank => exact exists_codeLines_below hblank hcode

/-- **Code is made of dedented lines**, in each block of a guide without carriage returns. -/
theorem Items.exists_codeLines {part last : Part} {lines : List Text} {additions : List Addition}
    (h : Items part lines additions last)
    (hlines : ∀ line ∈ lines, ∀ c, c = '\n' ∨ c = '\r' → c ∉ line) {kind : CodeKind} {code : Text}
    (hmem : .block (.code kind code) ∈ additions) : ∃ block, CodeLines code block := by
  induction h with
  | nil _ => cases hmem
  | cons head _ ih =>
      obtain ⟨hhead, htail⟩ := List.forall_mem_append.1 hlines
      rcases List.mem_cons.1 hmem with rfl | hmem
      · cases head with
        | code hblock => exact hblock.exists_codeLines hhead
      · exact ih htail hmem

end Guide

/-! ### Programs -/

/-- A line of the body of a program. -/
def bodyLine (line : Text) : Text :=
  if line = [] then [] else indentation ++ line

/-- The lines of a body are indented by one step, and blank lines stay blank. -/
theorem indents_bodyLine : Text.Indents indentation bodyLine := by
  have hspace : Text.isBlank indentation = true := by decide
  constructor
  · intro line
    rw [bodyLine]
    split
    · next hnil => rw [hnil]
    · rw [Text.isBlank_append, hspace, Bool.true_and]
  · intro line hline
    refine if_neg fun hnil => ?_
    rw [hnil] at hline
    exact absurd hline (by decide)

/-- A line of a body is a line of a source. -/
theorem isLine_bodyLine {line : Text} (h : Text.IsLine line) : Text.IsLine (bodyLine line) := by
  rw [bodyLine]
  split
  · decide
  · exact Text.isLine_margin_append 4 h

/-- The program is the line of its package, the imports in their order, and `fun main() {` around a
body of which the code is left when it is dedented. -/
def IsProgramOf (package : Text) (imports : List Text) (code program : Text) : Prop :=
  ∃ body : List Text, (∀ line ∈ body, Text.IsLine line) ∧
    program = Text.unlines (["package ".toList ++ package, []] ++ imports
      ++ (if imports = [] then [] else [[]]) ++ ["fun main() \x7b".toList] ++ body ++ [['\x7d']]) ∧
    Text.dedent body = code

/-- Lines in the order of a program. -/
theorem unlines_in_order (first opening closing : Text) (imports blank body : List Text) :
    Text.unlines ([first, []] ++ imports ++ blank ++ [opening] ++ body ++ [closing]) =
      first ++ ['\n', '\n'] ++ Text.unlines imports ++ Text.unlines blank ++ (opening ++ ['\n'])
        ++ Text.unlines body ++ (closing ++ ['\n']) := by
  have hsingle : ∀ line, Text.unlines [line] = line ++ ['\n'] := fun line =>
    Text.unlines_cons line []
  have hfirst : Text.unlines [first, []] = first ++ ['\n', '\n'] := Text.unlines_cons first [[]]
  rw [Text.unlines_append, Text.unlines_append, Text.unlines_append, Text.unlines_append,
    Text.unlines_append, hfirst, hsingle, hsingle]

/-- A program is written line by line. -/
theorem program_eq_unlines (package : Text) (imports : List Text) {code : Text} {block : List Text}
    (h : CodeLines code block) :
    program package imports none code =
      Text.unlines (["package ".toList ++ package, []] ++ imports
        ++ (if imports = [] then [] else [[]]) ++ ["fun main() \x7b".toList]
        ++ block.map bodyLine ++ [['\x7d']]) := by
  have hbody : ((Text.lines code).map programLine).flatten = Text.unlines (block.map bodyLine) := by
    rw [h.lines_eq, Text.unlines, List.map_map]
    rfl
  have hblank : (if imports = [] then [] else ['\n']) =
      Text.unlines (if imports = [] then [] else [[]]) := by
    split <;> rfl
  have hfeeds : "\n\n".toList = ['\n', '\n'] := by decide
  have hmain : "fun main() \x7b\n".toList = "fun main() \x7b".toList ++ ['\n'] := by decide
  have hclose : "\x7d\n".toList = ['\x7d'] ++ ['\n'] := by decide
  rw [unlines_in_order, program, hbody, hblank, hfeeds, hmain, hclose]
  rfl

/-- **The code of a program** is left of its body. -/
theorem isProgramOf_program (package : Text) (imports : List Text) {code : Text}
    {block : List Text} (h : CodeLines code block) :
    IsProgramOf package imports code (program package imports none code) := by
  refine ⟨block.map bodyLine, ?_, program_eq_unlines package imports h, ?_⟩
  · intro l hl
    obtain ⟨line, hline, rfl⟩ := List.mem_map.1 hl
    exact isLine_bodyLine (h.isLine line hline)
  · rw [h.dedented.dedent_map (by decide) indents_bodyLine, h.code_eq]

/-! ### Pages -/

/-- A section of a page: code between fences, or anything else. -/
inductive PageSection where
  | fence (code : Text)
  | other (markup : Text)
  deriving DecidableEq

namespace PageSection

/-- What stands on the page. -/
def markup : PageSection → Text
  | fence code => "```kotlin\n".toList ++ code ++ "\n```".toList
  | other markup => markup

/-- The code between the fences. -/
def code? : PageSection → Option Text
  | fence code => some code
  | other _ => none

end PageSection

/-- The page that consists of the sections, with empty lines between them. -/
def pageOf (sections : List PageSection) : Text :=
  if sections = [] then []
  else Text.join "\n\n".toList (sections.map PageSection.markup) ++ ['\n']

namespace Block

/-- The section of a block, if it has one. -/
def section? : Block → Option PageSection
  | .text prose => if prose = [] then none else some (.other prose)
  | .media kind path => some (.other (kind.render path))
  | .code kind content => if kind.isShown then some (.fence content) else none

/-- The kind and the code of a block of code. -/
def asCode? : Block → Option (CodeKind × Text)
  | .code kind content => some (kind, content)
  | _ => none

/-- A block has at most one section. -/
theorem sections_eq (block : Block) : block.sections = (block.section?.map (·.markup)).toList := by
  cases block with
  | text prose =>
      rw [sections, section?]
      split <;> rfl
  | media kind path => rfl
  | code kind content =>
      rw [sections, section?]
      split <;> rfl

end Block

/-- The codes that stand between fences are those that are to be shown. -/
theorem filterMap_code_section (blocks : List Block) :
    (blocks.filterMap Block.section?).filterMap PageSection.code? =
      ((blocks.filterMap Block.asCode?).filter (·.1.isShown)).map (·.2) := by
  rw [← List.filterMap_eq_filter, List.map_filterMap, List.filterMap_filterMap,
    List.filterMap_filterMap]
  refine List.filterMap_congr fun block _ => ?_
  cases block with
  | text prose =>
      by_cases hprose : prose = [] <;>
        simp [Block.section?, Block.asCode?, PageSection.code?, hprose]
  | media kind path => rfl
  | code kind content =>
      by_cases hshown : kind.isShown = true <;>
        simp [Block.section?, Block.asCode?, PageSection.code?, Option.guard, hshown]

namespace Guide

/-- The sections of a guide are those of its blocks, in their order. -/
theorem sections_eq (guide : Guide) :
    guide.sections = (guide.blocks.filterMap Block.section?).map PageSection.markup := by
  rw [sections, List.map_filterMap, List.filterMap_eq_flatMap_toList]
  exact congrArg (List.flatMap · guide.blocks) (funext Block.sections_eq)

/-- The page of a guide consists of the sections of its blocks. -/
theorem page_eq_pageOf (guide : Guide) :
    guide.page = pageOf (guide.blocks.filterMap Block.section?) := by
  rw [pageOf]
  split
  · next hnone => rw [page_eq_nil_iff, sections_eq, hnone, List.map_nil]
  · next hsome =>
    rw [page_of_sections, sections_eq]
    rwa [sections_eq, ne_eq, List.map_eq_nil_iff]

/-- The codes of a guide with a property are picked by their kinds. -/
theorem codes_eq (guide : Guide) (p : CodeKind → Bool) :
    guide.codes p = ((guide.blocks.filterMap Block.asCode?).filter (p ·.1)).map (·.2) := by
  rw [codes, ← List.filterMap_eq_filter, List.map_filterMap, List.filterMap_filterMap]
  refine List.filterMap_congr fun block _ => ?_
  cases block with
  | code kind content =>
      by_cases hp : p kind = true <;> simp [Block.code?, Block.asCode?, Option.guard, hp]
  | _ => rfl

end Guide

/-! ### Sources -/

/-- What is published of the blocks of a guide: which codes are shown, run and exported is told by
their kinds, in the order of the blocks, and each is the code of its section and of its programs. -/
structure RoutesCode (package : Text) (imports : List Text) (blocks : List Block)
    (p : Publication) : Prop where
  page : p.page = pageOf (blocks.filterMap Block.section?)
  fences : (blocks.filterMap Block.section?).filterMap PageSection.code? =
    ((blocks.filterMap Block.asCode?).filter (·.1.isShown)).map (·.2)
  runnable : List.Forall₂ (fun block program => IsProgramOf package imports block.2 program)
    ((blocks.filterMap Block.asCode?).filter (·.1.isRun)) p.runnable
  exported : List.Forall₂ (fun block program => IsProgramOf package imports block.2 program)
    ((blocks.filterMap Block.asCode?).filter (·.1.isExported)) p.exported

/-- How many sections with fences and how many programs there are. -/
structure CountsCode (blocks : List Block) (p : Publication) : Prop where
  fences : ((blocks.filterMap Block.section?).filterMap PageSection.code?).length =
    (blocks.filterMap Block.asCode?).countP (·.1.isShown)
  runnable : p.runnable.length = (blocks.filterMap Block.asCode?).countP (·.1.isRun)
  exported : p.exported.length = (blocks.filterMap Block.asCode?).countP (·.1.isExported)

/-- Where the codes go tells how many there are of each sort. -/
theorem RoutesCode.counts {package : Text} {imports : List Text} {blocks : List Block}
    {p : Publication} (h : RoutesCode package imports blocks p) : CountsCode blocks p where
  fences := by rw [h.fences, List.length_map, List.countP_eq_length_filter]
  runnable := by rw [← h.runnable.length_eq, List.countP_eq_length_filter]
  exported := by rw [← h.exported.length_eq, List.countP_eq_length_filter]

namespace Guide

/-- The import that an addition is. -/
def Addition.importLine? : Addition → Option Text
  | .importLine line => some line
  | _ => none

/-- The imports of a guide grow by the additions that are imports. -/
theorem imports_addAll (guide : Guide) (additions : List Addition) :
    (guide.addAll additions).imports =
      guide.imports ++ additions.filterMap Addition.importLine? := by
  induction additions generalizing guide with
  | nil => simp
  | cons addition additions ih =>
      rw [addAll_cons, ih, List.filterMap_cons]
      cases addition <;> simp [add, addDirective, addImport, addBlock, Addition.importLine?]

/-- The programs of the codes with a property of their kinds. -/
theorem forall₂_programs {package : Text} {guide : Guide}
    (h : ∀ kind code, .code kind code ∈ guide.blocks → ∃ block, CodeLines code block)
    (p : CodeKind → Bool) :
    List.Forall₂ (fun block program => IsProgramOf package guide.imports block.2 program)
      ((guide.blocks.filterMap Block.asCode?).filter (p ·.1))
      ((guide.codes p).map (program package guide.imports none)) := by
  rw [codes_eq, List.map_map, List.forall₂_map_right_iff, List.forall₂_same]
  rintro ⟨kind, code⟩ hmem
  obtain ⟨block, hblock, hcode⟩ := List.mem_filterMap.1 (List.mem_filter.1 hmem).1
  cases block with
  | code other content =>
      obtain ⟨rfl, rfl⟩ := Prod.mk.inj (Option.some.inj hcode)
      obtain ⟨lines, hlines⟩ := h other content hblock
      exact isProgramOf_program package guide.imports hlines
  | _ => cases hcode

/-- A guide all of whose codes are made of dedented lines is published with the same code
everywhere. -/
theorem routesCode_publication {guide : Guide}
    (h : ∀ kind code, .code kind code ∈ guide.blocks → ∃ block, CodeLines code block)
    (package : Text) :
    RoutesCode package guide.imports guide.blocks (guide.publication package none) where
  page := page_eq_pageOf guide
  fences := filterMap_code_section guide.blocks
  runnable := forall₂_programs h CodeKind.isRun
  exported := by
    have hplain : (guide.publication package none).exported =
        (guide.codes CodeKind.isExported).map (program package guide.imports none) :=
      List.ext_getElem? fun i => by rw [publication, List.getElem?_map, List.getElem?_mapIdx]; rfl
    rw [hplain]
    exact forall₂_programs h CodeKind.isExported

/-- **The code shown, run and exported is the same code.** The lines of an accepted source without
carriage returns can be cut into items. However they are cut: each code in them that is to be shown
stands between the fences of a section of the page; for each that is to be run or exported there is
a program, the line of its package, the imports in their order, and `fun main() {` around a body of
which the code is left when it is dedented; all in the order of the blocks, and no other. -/
theorem publish_codes {content package : Text} {p : Publication} (hreturn : '\r' ∉ content)
    (h : publish content package none = .ok p) :
    (∃ additions, Items .preamble (sourceLines content) additions .trailer) ∧
      ∀ additions, Items .preamble (sourceLines content) additions .trailer →
        RoutesCode package (additions.filterMap Addition.importLine?)
          (additions.filterMap Addition.block?) p ∧
        CountsCode (additions.filterMap Addition.block?) p := by
  obtain ⟨guide, hread, rfl⟩ := publish_eq_ok_iff.1 h
  constructor
  · obtain ⟨additions, hitems, -⟩ := ofLines_eq_ok_iff.1 hread
    exact ⟨additions, hitems⟩
  · intro additions hitems
    have hguide : guide = empty.addAll additions :=
      Except.ok.inj (hread.symm.trans (ofLines_eq_ok_iff.2 ⟨additions, hitems, rfl⟩))
    have hblocks : guide.blocks = additions.filterMap Addition.block? := by
      rw [hguide, blocks_addAll]
      rfl
    have himports : guide.imports = additions.filterMap Addition.importLine? := by
      rw [hguide, imports_addAll]
      rfl
    have hlines : ∀ line ∈ sourceLines content, ∀ c, c = '\n' ∨ c = '\r' → c ∉ line := by
      rintro line hline c (rfl | rfl)
      · exact not_mem_of_mem_sourceLines hline
      · exact fun hmem => hreturn ((infix_of_mem_sourceLines hline).1.mem hmem)
    have hcodes : ∀ kind code, .code kind code ∈ guide.blocks → ∃ block, CodeLines code block := by
      intro kind code hmem
      rw [hblocks] at hmem
      obtain ⟨addition, haddition, hblock⟩ := List.mem_filterMap.1 hmem
      cases addition with
      | block b =>
          obtain rfl := Option.some.inj hblock
          exact hitems.exists_codeLines hlines haddition
      | _ => cases hblock
    have hroutes := routesCode_publication hcodes package
    rw [hblocks, himports] at hroutes
    exact ⟨hroutes, hroutes.counts⟩

/-- A guide whose code stands behind a marker and below others, with an empty line and a raw string
in it. -/
def guideWithCode : Text :=
  "import x.y\nfun main() \x7b\n  @Text \"\"\"One\"\"\"\n".toList
    ++ "  @Code run \x7b\n      f()\n\n        g()\n    \x7d\n".toList
    ++ "  @Application\n    show(\"\"\"\n   \x7b\"\"\")\n\x7d\n".toList

/-- The first code is shown, run and exported, the second is run. -/
theorem publish_codes_of_guideWithCode :
    '\r' ∉ guideWithCode ∧ ∃ p, publish guideWithCode "examples".toList none = .ok p ∧
      p.page = "One\n\n```kotlin\nrun \x7b\n  f()\n\n    g()\n\x7d\n```\n".toList ∧
      ∃ additions, Items .preamble (sourceLines guideWithCode) additions .trailer ∧
        RoutesCode "examples".toList (additions.filterMap Addition.importLine?)
          (additions.filterMap Addition.block?) p := by
  have hreturn : '\r' ∉ guideWithCode := by decide +kernel
  have hpage : (publish guideWithCode "examples".toList none).map (·.page) =
      .ok "One\n\n```kotlin\nrun \x7b\n  f()\n\n    g()\n\x7d\n```\n".toList := by
    decide +kernel
  cases hp : publish guideWithCode "examples".toList none with
  | error e =>
      rw [hp] at hpage
      cases hpage
  | ok p =>
      rw [hp] at hpage
      obtain ⟨⟨additions, hitems⟩, hroutes⟩ := publish_codes hreturn hp
      exact ⟨hreturn, p, rfl, Except.ok.inj hpage, additions, hitems, (hroutes additions hitems).1⟩

end Guide

end Guidebook
