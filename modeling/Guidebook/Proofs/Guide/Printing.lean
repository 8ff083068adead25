import Guidebook.Guide.Publication
import Guidebook.Proofs.Directive.Quoting
import Guidebook.Proofs.Guide.Reading
import Guidebook.Proofs.Text.Lines
import Mathlib.Data.Char
import Mathlib.Data.List.Lex

/-!
# Printing Guides

A guide is printed as a source: a line for each directive and each import, the line `fun main() {`,
the blocks with their markers, and the line `}`. Reading the source gives the guide back, if its
prose and its code are such as a source can hold (`Guide.IsPrintable`): nothing in them is lost when
margins are taken off, and nothing in them ends their block too early.

Markers and what stands below them may be indented by any width; a guide does not say how far.

## Main results

* `Braces.after_indented`: a margin opens and closes nothing.
* `Block.item_print`: a printed block is an item of the body that adds the block.
* `Guide.items_print`: a printed guide is a whole guide.
* `Guide.publish_print`: **printing and reading back**.
-/

namespace Guidebook

/-! ### Tables and their entries -/

namespace Table

variable {κ ν : Type} [LT κ] [DecidableEq κ] [DecidableLT κ]
  [Trans (· < · : κ → κ → Prop) (· < ·) (· < ·)] [Std.Trichotomous (· < · : κ → κ → Prop)]
  [Std.Irrefl (· < · : κ → κ → Prop)]

/-- Inserting ascending entries changes the answers for their keys. -/
theorem get?_foldl_insert (t : Table κ ν) {entries : List (κ × ν)}
    (h : entries.Pairwise fun a b => a.1 < b.1) (k : κ) :
    (entries.foldl (fun t e => t.insert e.1 e.2) t).get? k = (valueIn k entries).or (t.get? k) := by
  induction entries generalizing t with
  | nil => rfl
  | cons head rest ih =>
      obtain ⟨hhead, hrest⟩ := List.pairwise_cons.1 h
      rw [List.foldl_cons, ih _ hrest, get?_insert, valueIn]
      by_cases hk : head.1 = k
      · have hnone : valueIn k rest = none := by
          rw [Option.eq_none_iff_forall_ne_some]
          intro v hv
          have hlt := hhead _ (mem_of_valueIn hv)
          rw [hk] at hlt
          exact Std.Irrefl.irrefl k hlt
        rw [if_pos hk, if_pos hk, hnone]
        rfl
      · rw [if_neg hk, if_neg hk]

/-- A table is made of its entries. -/
theorem foldl_insert_entries [Std.Asymm (· < · : κ → κ → Prop)] (t : Table κ ν) :
    t.entries.foldl (fun t e => t.insert e.1 e.2) empty = t := by
  refine ext_get? fun k => ?_
  rw [get?_foldl_insert _ t.ascending, get?_empty, Option.or_none]
  rfl

end Table

/-! ### Margins and braces -/

namespace Braces

/-- **A margin opens and closes nothing.** -/
theorem after_indented (width : Nat) (block : List Text) :
    after (Text.indented width block) = after block := by
  rw [after, after, Text.indented, List.foldl_map]
  simp only [addLine_append (Text.isBlank_margin width)]

/-- Lines whose braces match have matching braces behind a margin. -/
theorem closes_indented (width : Nat) {block : List Text} (h : Closes block) :
    Closes (Text.indented width block) where
  nonempty := by simpa [Text.indented] using h.nonempty
  opened := by
    intro n hn hpos
    rw [Text.indented, List.length_map] at hn
    rw [Text.indented, ← List.map_take]
    rw [← Text.indented, after_indented]
    exact h.opened n hn hpos
  closed := (after_indented width block).trans h.closed

/-- A block of code that begins with a blank line ends with it. -/
theorem Closes.eq_nil_of_blank {line : Text} {more : List Text} (h : Closes (line :: more))
    (hline : Text.isBlank line = true) : more = [] := by
  by_contra hmore
  have hpos := List.length_pos_iff.2 hmore
  have hopen := h.opened 1 (by rw [List.length_cons]; omega) (by omega)
  have hstart : after [line] = start := by
    have happend := addLine_append hline start []
    rw [List.append_nil] at happend
    exact happend
  rw [List.take_succ_cons, List.take_zero, hstart] at hopen
  exact absurd hopen (by decide)

end Braces

/-! ### Printing -/

namespace Block

/-- The lines of a block: its marker, and below it the prose between quotes or the code. -/
def print (outer inner : Nat) : Block → List Text
  | .text prose =>
    [Text.margin outer ++ '@' :: "Text".toList, Text.margin inner ++ Guide.textQuotes]
      ++ Text.indented inner (Text.lines prose) ++ [Text.margin inner ++ Guide.textQuotes]
  | .code kind content =>
    (Text.margin outer ++ '@' :: kind.marker) :: Text.indented inner (Text.lines content)
  | .media kind path =>
    [Text.margin outer ++ '@' :: (kind.marker ++ ' ' :: Literal.quote path)]

/-- The block can be printed. Prose and code are what is left of their lines when margins are taken
off; prose holds no closing quotes; code does not begin like a block and is complete with its last
line. -/
def IsPrintable : Block → Prop
  | .text prose =>
    '\r' ∉ prose ∧ Text.dedent (Text.lines prose) = prose ∧ ¬ Guide.textQuotes <:+: prose
  | .code _ content =>
    '\r' ∉ content ∧ Text.dedent (Text.lines content) = content ∧
      Braces.Closes (Text.lines content) ∧
      ∀ first ∈ (Text.lines content).head?, Guide.isBoundary (Text.trim first) = false
  | .media _ _ => True

instance : DecidablePred IsPrintable
  | .text _ => inferInstanceAs (Decidable (_ ∧ _))
  | .code _ _ => inferInstanceAs (Decidable (_ ∧ _))
  | .media _ _ => inferInstanceAs (Decidable True)

end Block

namespace Guide

/-- The lines of a guide. -/
def printLines (outer inner : Nat) (guide : Guide) : List Text :=
  (guide.directives.entries.map fun e => Directive.print e.1 e.2) ++ guide.imports
    ++ ["fun main() \x7b".toList] ++ guide.blocks.flatMap (Block.print outer inner) ++ [['\x7d']]

/-- The source of a guide. Markers stand behind a margin of width `outer`, what belongs to them
behind one of width `inner`. -/
def print (outer inner : Nat) (guide : Guide) : Text :=
  Text.unlines (guide.printLines outer inner)

/-- The guide can be printed. -/
structure IsPrintable (guide : Guide) : Prop where
  names : ∀ e ∈ guide.directives.entries, Lexeme.IsName e.1
  imports : ∀ line ∈ guide.imports, Text.IsTrimmed line ∧ "import ".toList <+: line ∧
    '\n' ∉ line ∧ ¬ "dokgen.annotations".toList <:+: line
  blocks : ∀ block ∈ guide.blocks, block.IsPrintable

end Guide

/-! ### Printed blocks are items -/

namespace Block

open Guide

/-- The markers of code are made of the characters of markers. -/
theorem isMarkerChar_of_mem_codeMarker (kind : CodeKind) :
    ∀ c ∈ kind.marker, isMarkerChar c = true := by
  refine List.all_eq_true.1 ?_
  cases kind <;> decide

/-- The markers of images and videos are made of the characters of markers. -/
theorem isMarkerChar_of_mem_mediaMarker (kind : MediaKind) :
    ∀ c ∈ kind.marker, isMarkerChar c = true := by
  refine List.all_eq_true.1 ?_
  cases kind <;> decide

/-- The line of a marker carries the marker, behind any margin. -/
theorem marks_margin (outer : Nat) {name : Text} (tail : Text)
    (hname : ∀ c ∈ name, isMarkerChar c = true) (htail : ∀ c ∈ tail.head?, isMarkerChar c = false)
    (htrim : Text.IsTrimmed ('@' :: (name ++ tail))) :
    Marks (Text.margin outer ++ '@' :: (name ++ tail)) name (Text.trim tail) := by
  refine ⟨tail, ?_, hname, htail, rfl⟩
  rw [Text.trim_append_left (Text.isBlank_margin outer), Text.trim_eq_self htrim]

/-- The line of a marker with nothing behind it. -/
theorem marks_margin_bare (outer : Nat) {name : Text} (hname : ∀ c ∈ name, isMarkerChar c = true)
    (htrim : Text.IsTrimmed ('@' :: name)) : Marks (Text.margin outer ++ '@' :: name) name [] := by
  have hmarks := marks_margin outer [] hname (by simp) (by rwa [List.append_nil])
  rwa [List.append_nil] at hmarks

/-- A printed block of prose is an item, and adds the prose. -/
theorem item_print_text (outer inner : Nat) {prose : Text} (h : (text prose).IsPrintable) :
    Item .body (print outer inner (.text prose)) (.block (.text prose)) .body := by
  obtain ⟨-, hdedent, hquotes⟩ := h
  have hmarks : Marks (Text.margin outer ++ '@' :: "Text".toList) "Text".toList [] :=
    marks_margin_bare outer (List.all_eq_true.1 (by decide)) (by decide)
  have htrim : Text.trim (Text.margin inner ++ textQuotes) = textQuotes ++ [] := by
    rw [Text.trim_append_left (Text.isBlank_margin inner), Text.trim_eq_self (by decide)]
    rfl
  have hblank : Text.isBlank (Text.margin inner ++ textQuotes) = false := by
    rw [Text.isBlank_margin_append]
    decide
  have hlead : Lead "Text".toList
      [Text.margin outer ++ '@' :: "Text".toList, Text.margin inner ++ textQuotes] false
      (Text.margin inner ++ textQuotes) :=
    .below hmarks (List.forall_mem_nil _) hblank
  have hmargin : ∀ line, textQuotes <:+: Text.margin inner ++ line ↔ textQuotes <:+: line :=
    Text.infix_append_blank (by decide) (by decide) (Text.isBlank_margin inner)
  have hinner : ∀ l ∈ Text.indented inner (Text.lines prose), ¬ textQuotes <:+: l := by
    intro l hl
    obtain ⟨line, hline, rfl⟩ := List.mem_map.1 hl
    rw [hmargin]
    exact fun hin => hquotes (hin.trans (Text.infix_of_mem_lines hline).1)
  have hclose : Text.FirstAt textQuotes (Text.margin inner ++ textQuotes) (Text.margin inner) [] :=
    ⟨(List.append_nil _).symm, by rw [hmargin]; decide⟩
  have hblock := IsTextBlock.long hlead htrim (by decide) hinner hclose (.inl rfl)
  rw [Text.dedent_concat_blank (Text.isBlank_margin inner), Text.dedent_cons_blank rfl,
    Text.dedent_indented, hdedent] at hblock
  exact .text hblock

/-- A printed block of code is an item, and adds the code. -/
theorem item_print_code (outer inner : Nat) {kind : CodeKind} {content : Text}
    (h : (code kind content).IsPrintable) :
    Item .body (print outer inner (.code kind content)) (.block (.code kind content)) .body := by
  obtain ⟨-, hdedent, hcloses, hboundary⟩ := h
  have hmarks : Marks (Text.margin outer ++ '@' :: kind.marker) kind.marker [] :=
    marks_margin_bare outer (isMarkerChar_of_mem_codeMarker kind) (by cases kind <;> decide)
  obtain ⟨first, more, hlines⟩ := List.exists_cons_of_ne_nil hcloses.nonempty
  rw [hlines] at hdedent hcloses hboundary
  have hblank : Text.isBlank first = false := by
    by_contra hblank
    rw [Bool.not_eq_false] at hblank
    -- the braces of a blank line match, so it would be all there is
    rw [hcloses.eq_nil_of_blank hblank, Text.dedent_cons_blank hblank] at hdedent
    rw [← hdedent] at hlines
    exact absurd hlines (List.cons_ne_nil first more).symm
  have hlead : Lead kind.marker
      [Text.margin outer ++ '@' :: kind.marker, Text.margin inner ++ first] false
      (Text.margin inner ++ first) :=
    .below hmarks (List.forall_mem_nil _) ((Text.isBlank_margin_append inner first).trans hblank)
  have hfirst : isBoundary (Text.trim (Text.margin inner ++ first)) = false := by
    rw [Text.trim_append_left (Text.isBlank_margin inner)]
    exact hboundary first rfl
  have hblock := IsCodeBlock.mk hlead (fun _ => hfirst) (Braces.closes_indented inner hcloses)
  have hcode : Reader.codeOf false (Text.indented inner (first :: more)) = content := by
    rw [← hdedent, ← Text.dedent_indented inner (first :: more)]
    rfl
  rw [print, hlines, ← hcode]
  exact .code hblock

/-- A printed image or video is an item, whatever its path is. -/
theorem item_print_media (outer inner : Nat) (kind : MediaKind) (path : Text) :
    Item .body (print outer inner (.media kind path)) (.block (.media kind path)) .body := by
  have hquote : Text.IsTrimmed (Literal.quote path) :=
    Text.isTrimmed_of_ends (by decide) (Literal.escaped path) (by decide)
  have hline : Text.IsTrimmed ('@' :: (kind.marker ++ ' ' :: Literal.quote path)) := by
    have hends := Text.isTrimmed_of_ends (c := '@') (d := '"') (by decide)
      (kind.marker ++ ' ' :: '"' :: Literal.escaped path) (by decide)
    simpa [Literal.quote] using hends
  have hbehind : ∀ c ∈ (' ' :: Literal.quote path).head?, isMarkerChar c = false := by
    intro c hc
    obtain rfl := Option.some.inj hc
    decide
  have hmarks := marks_margin outer (' ' :: Literal.quote path)
    (isMarkerChar_of_mem_mediaMarker kind) hbehind hline
  have hspace : Text.isBlank [' '] = true := by decide
  have hargument : Text.trim (' ' :: Literal.quote path) = Literal.quote path :=
    (Text.trim_append_left hspace _).trans (Text.trim_eq_self hquote)
  rw [hargument] at hmarks
  exact .media hmarks (Literal.parse_quote path)

/-- **A printed block** is an item of the body, and adds the block. -/
theorem item_print (outer inner : Nat) {block : Block} (h : block.IsPrintable) :
    Item .body (print outer inner block) (.block block) .body := by
  cases block with
  | text prose => exact item_print_text outer inner h
  | code kind code => exact item_print_code outer inner h
  | media kind path => exact item_print_media outer inner kind path

/-- A printed block consists of lines. -/
theorem isLine_print (outer inner : Nat) {block : Block} (h : block.IsPrintable) :
    ∀ line ∈ print outer inner block, Text.IsLine line := by
  have hindented : ∀ content : Text, '\r' ∉ content →
      ∀ line ∈ Text.indented inner (Text.lines content), Text.IsLine line := by
    intro content hcontent line hline
    obtain ⟨l, hl, rfl⟩ := List.mem_map.1 hline
    exact Text.isLine_margin_append inner (Text.isLine_of_mem_lines hcontent hl)
  cases block with
  | text prose =>
      have hquotes : Text.IsLine (Text.margin inner ++ textQuotes) :=
        Text.isLine_margin_append inner (by decide)
      have hmarker : Text.IsLine (Text.margin outer ++ '@' :: "Text".toList) :=
        Text.isLine_margin_append outer (by decide)
      simp only [print, List.forall_mem_append, List.forall_mem_cons]
      exact ⟨⟨⟨hmarker, hquotes, List.forall_mem_nil _⟩, hindented prose h.1⟩, hquotes,
        List.forall_mem_nil _⟩
  | code kind content =>
      have hmarker : Text.IsLine (Text.margin outer ++ '@' :: kind.marker) :=
        Text.isLine_margin_append outer (by cases kind <;> decide)
      exact List.forall_mem_cons.2 ⟨hmarker, hindented content h.1⟩
  | media kind path =>
      refine List.forall_mem_singleton.2 (Text.isLine_margin_append outer ?_)
      refine Text.isLine_of_not_mem fun c hc => ?_
      have hfront : c ≠ '@' ∧ c ∉ kind.marker ∧ c ≠ ' ' := by
        rcases hc with rfl | rfl <;> cases kind <;> decide
      simp only [List.mem_cons, List.mem_append, not_or]
      exact ⟨hfront.1, hfront.2.1, hfront.2.2, Literal.not_mem_quote hc path⟩

end Block

/-! ### Printed guides -/

namespace Guide

/-- Items that are made alike of the members of a list. -/
theorem Items.of_flatMap {α : Type} {part : Part} {lines : α → List Text} {adds : α → Addition}
    {l : List α} (h : ∀ a ∈ l, Item part (lines a) (adds a) part) :
    Items part (l.flatMap lines) (l.map adds) part := by
  induction l with
  | nil => exact .nil part
  | cons a l ih =>
      obtain ⟨ha, hl⟩ := List.forall_mem_cons.1 h
      exact .cons ha (ih hl)

/-- Directives are added by setting their names one by one. -/
theorem addAll_directives (entries : List (Text × Text)) (guide : Guide) :
    guide.addAll (entries.map fun e => .directive e.1 e.2) =
      { guide with
        directives := entries.foldl (fun t e => t.insert e.1 e.2) guide.directives } := by
  induction entries generalizing guide with
  | nil => rfl
  | cons e entries ih => rw [List.map_cons, addAll_cons, ih, List.foldl_cons]; rfl

/-- Imports are added behind those that there are. -/
theorem addAll_imports (lines : List Text) (guide : Guide) :
    guide.addAll (lines.map .importLine) = { guide with imports := guide.imports ++ lines } := by
  induction lines generalizing guide with
  | nil => simp
  | cons line lines ih =>
      rw [List.map_cons, addAll_cons, ih, List.append_cons]
      rfl

/-- Blocks are added behind those that there are. -/
theorem addAll_blocks (blocks : List Block) (guide : Guide) :
    guide.addAll (blocks.map .block) = { guide with blocks := guide.blocks ++ blocks } := by
  induction blocks generalizing guide with
  | nil => simp
  | cons block blocks ih =>
      rw [List.map_cons, addAll_cons, ih, List.append_cons]
      rfl

/-- **A printed guide** is a whole guide, and its items add up to it. -/
theorem items_print (outer inner : Nat) {guide : Guide} (h : guide.IsPrintable) :
    ∃ additions, Items .preamble (guide.printLines outer inner) additions .trailer ∧
      guide = empty.addAll additions := by
  have hdirectives : Items .preamble
      (guide.directives.entries.flatMap fun e => [Directive.print e.1 e.2])
      (guide.directives.entries.map fun e => .directive e.1 e.2) .preamble := by
    refine Items.of_flatMap fun e he => ?_
    have htrim := Text.trim_eq_self (Directive.isTrimmed_print e.1 e.2)
    have hparse := Directive.parse_print (h.names e he) e.2
    rw [← htrim] at hparse
    exact .directive (htrim.symm ▸ Directive.target_print e.1 e.2) hparse
  have himports : Items .preamble (guide.imports.flatMap fun line => [line])
      (guide.imports.map .importLine) .preamble := by
    refine Items.of_flatMap fun line hline => ?_
    obtain ⟨htrimmed, himport, -, hkeep⟩ := h.imports line hline
    have htrim := Text.trim_eq_self htrimmed
    have hitem : Item .preamble [line] (.importLine (Text.trim line)) .preamble :=
      .importLine (htrim.symm ▸ himport) (htrim.symm ▸ hkeep)
    rwa [htrim] at hitem
  have hmain : Items .preamble ["fun main() \x7b".toList] [.nothing] .body :=
    .of_item (.main (by decide))
  have hblocks : Items .body (guide.blocks.flatMap (Block.print outer inner))
      (guide.blocks.map .block) .body :=
    Items.of_flatMap fun block hblock => Block.item_print outer inner (h.blocks block hblock)
  have hclose : Items .body [['\x7d']] [.nothing] .trailer := .of_item (.close (by decide))
  have hall := (((hdirectives.append himports).append hmain).append hblocks).append hclose
  rw [← List.map_eq_flatMap, ← List.map_eq_flatMap, List.map_id'] at hall
  refine ⟨_, hall, ?_⟩
  rw [addAll_append, addAll_append, addAll_append, addAll_append, addAll_directives,
    addAll_imports, addAll_cons, addAll_nil, addAll_blocks, addAll_cons, addAll_nil]
  have hentries : guide.directives.entries.foldl (fun t e => t.insert e.1 e.2) .empty =
      guide.directives := Table.foldl_insert_entries guide.directives
  simp only [add, empty, List.nil_append, hentries]

/-- A printed guide consists of lines. -/
theorem isLine_printLines (outer inner : Nat) {guide : Guide} (h : guide.IsPrintable) :
    ∀ line ∈ guide.printLines outer inner, Text.IsLine line := by
  intro line hline
  simp only [printLines, List.mem_append, List.mem_map, List.mem_flatMap, List.mem_singleton]
    at hline
  rcases hline with (((⟨e, he, rfl⟩ | himport) | rfl) | ⟨block, hblock, hline⟩) | rfl
  · exact Text.isLine_of_not_mem fun c hc => Directive.not_mem_print hc (h.names e he) e.2
  · obtain ⟨htrimmed, -, hfeed, -⟩ := h.imports line himport
    refine ⟨hfeed, fun hlast => ?_⟩
    exact absurd (htrimmed.2 '\r' hlast) (by decide)
  · decide
  · exact Block.isLine_print outer inner (h.blocks block hblock) line hline
  · decide

/-- **Printing and reading back.** -/
theorem publish_print (outer inner : Nat) {guide : Guide} (h : guide.IsPrintable) :
    read (guide.print outer inner) = .ok guide ∧ ∀ package link,
      publish (guide.print outer inner) package link = .ok (guide.publication package link) := by
  have hlines := isLine_printLines outer inner h
  have hsource : sourceLines (guide.print outer inner) = guide.printLines outer inner := by
    rw [sourceLines, print, Text.lines_unlines hlines]
    exact (List.map_congr_left fun line hline =>
      Text.dropCarriageReturn_eq_self (hlines line hline)).trans (List.map_id' _)
  have hread : read (guide.print outer inner) = .ok guide := by
    rw [read, hsource, ofLines_eq_ok_iff]
    exact items_print outer inner h
  refine ⟨hread, fun package link => ?_⟩
  rw [publish, hread]

/-- A guide of one directive, one import, prose and code, behind margins of two and four. -/
theorem read_printed_guide :
    read ("@file:URL(\"a/b\")\nimport x.y\nfun main() \x7b\n".toList
        ++ "  @Text\n    \"\"\"\n    One\n    \"\"\"\n".toList
        ++ "  @Code\n    f \x7b\n      g()\n    \x7d\n\x7d\n".toList) =
      .ok ⟨.ofList [("URL".toList, "a/b".toList)], ["import x.y".toList],
        [.text "One".toList, .code .shown "f \x7b\n  g()\n\x7d".toList]⟩ := by
  have hentries : (Table.ofList [("URL".toList, "a/b".toList)] : Directives).entries =
      [("URL".toList, "a/b".toList)] := by
    decide +kernel
  have hnames : ∀ e ∈ (Table.ofList [("URL".toList, "a/b".toList)] : Directives).entries,
      Lexeme.IsName e.1 := by
    rw [hentries]
    refine List.forall_mem_singleton.2 ⟨'U', ['R', 'L'], rfl, by decide, ?_⟩
    exact List.all_eq_true.1 (by decide)
  have hsource : print 2 4 ⟨.ofList [("URL".toList, "a/b".toList)], ["import x.y".toList],
      [.text "One".toList, .code .shown "f \x7b\n  g()\n\x7d".toList]⟩ =
      "@file:URL(\"a/b\")\nimport x.y\nfun main() \x7b\n".toList
        ++ "  @Text\n    \"\"\"\n    One\n    \"\"\"\n".toList
        ++ "  @Code\n    f \x7b\n      g()\n    \x7d\n\x7d\n".toList := by
    decide +kernel
  rw [← hsource]
  exact (publish_print 2 4 ⟨hnames, by decide +kernel, by decide +kernel⟩).1

end Guide

end Guidebook
