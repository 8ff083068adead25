import Guidebook.Guide.Reader
import Guidebook.Proofs.Text.Search

/-!
# The Grammar of Guides

What a guide looks like on the page, said without the machine that reads it: its lines can be cut,
in order, into *items*. An item is a run of lines that belong together: a blank line or a comment, a
directive, an import, the package, the line `fun main() {`, an annotated block, the closing `}`.
Each item adds something to the guide or nothing, and leads from one part of the guide to the same
or to the next.

`Guide.Item` lists the items, `Guide.Items` strings them together. That `Guide.ofLines` accepts
exactly these lines, and reads off them what the items add, is the theory of
`Guidebook.Proofs.Guide.Reading`.

## Main results

* `Guide.Items.append`: stretches of items can be joined.
* `Guide.items_iff`: the items from the first line of a guide to its last are those of the preamble,
  the line `fun main() {`, those of the body, the line `}`, and nothing but blanks and comments.
-/

namespace Guidebook

namespace Braces

/-- The count after the lines of a block. -/
def after (block : List Text) : Braces :=
  block.foldl addLine start

/-- A block of code is complete: something is open behind each of its lines but the last, and behind
the last every brace is matched and no raw string is open. -/
structure Closes (block : List Text) : Prop where
  nonempty : block ≠ []
  opened : ∀ n < block.length, 0 < n → (after (block.take n)).isOpen = true
  closed : after block = start

instance (block : List Text) : Decidable (Closes block) :=
  decidable_of_iff
    (block ≠ [] ∧ (∀ n < block.length, 0 < n → (after (block.take n)).isOpen = true) ∧
      after block = start)
    ⟨fun h => ⟨h.1, h.2.1, h.2.2⟩, fun h => ⟨h.nonempty, h.opened, h.closed⟩⟩

/-- Something is open behind each line of a block of code. -/
def StaysOpen (block : List Text) : Prop :=
  ∀ n ≤ block.length, 0 < n → (after (block.take n)).isOpen = true

/-- White space opens and closes nothing. -/
theorem scan_space {context : CodeContext} (hcontext : context = .code ∨ context = .raw)
    {c : Char} (hc : Text.isSpace c = true) (depth : Int) (rest : Text) :
    scan context depth (c :: rest) = scan context depth rest := by
  have hne : ∀ d, Text.isSpace d = false → c ≠ d := by
    rintro d hd rfl
    exact absurd (hd.symm.trans hc) (by decide)
  rcases hcontext with rfl | rfl
  · rw [scan, if_neg, if_neg (hne _ (by decide)), if_neg (hne _ (by decide))]
    · exact not_or.2 ⟨hne _ (by decide), hne _ (by decide)⟩
    · exact fun tail heq => absurd heq (hne _ (by decide))
    · exact fun tail heq => absurd heq (hne _ (by decide))
  · rw [scan]
    exact fun tail heq => absurd heq (hne _ (by decide))

/-- Blanks in front of a line do not change its count. -/
theorem addLine_append {before : Text} (h : Text.isBlank before = true) (braces : Braces)
    (line : Text) : braces.addLine (before ++ line) = braces.addLine line := by
  have hcontext : (if braces.inRaw then CodeContext.raw else .code) = .code ∨
      (if braces.inRaw then CodeContext.raw else .code) = .raw := by
    cases braces.inRaw with
    | false => exact .inl rfl
    | true => exact .inr rfl
  rw [Text.isBlank_iff] at h
  induction before with
  | nil => rfl
  | cons c before ih =>
      obtain ⟨hc, hbefore⟩ := List.forall_mem_cons.1 h
      rw [← ih hbefore, addLine, addLine, List.cons_append, scan_space hcontext hc]

end Braces

namespace Guide

/-! ### What items add -/

/-- What an item adds to a guide. -/
inductive Addition where
  | nothing
  | directive (name value : Text)
  | importLine (line : Text)
  | block (block : Block)
  deriving DecidableEq, Repr

/-- The guide with what one item adds. -/
def add (guide : Guide) : Addition → Guide
  | .nothing => guide
  | .directive name value => guide.addDirective name value
  | .importLine line => guide.addImport line
  | .block block => guide.addBlock block

/-- The guide with what a sequence of items adds. -/
def addAll (guide : Guide) (additions : List Addition) : Guide :=
  additions.foldl add guide

@[simp] theorem addAll_nil (guide : Guide) : guide.addAll [] = guide := rfl

@[simp] theorem addAll_cons (guide : Guide) (addition : Addition) (additions : List Addition) :
    guide.addAll (addition :: additions) = (guide.add addition).addAll additions := rfl

/-- Additions in a row are made one part behind the other. -/
theorem addAll_append (guide : Guide) (first second : List Addition) :
    guide.addAll (first ++ second) = (guide.addAll first).addAll second :=
  List.foldl_append

/-! ### Blank lines and comments -/

/-- The lines say nothing: a blank line, a line comment, or a comment between `/*` and the first
`*/` behind it, on one line or on several. -/
inductive IsSkip : List Text → Prop
  | blank {line : Text} (h : Text.isBlank line = true) : IsSkip [line]
  | remark {line : Text} (h : "//".toList <+: Text.trim line) : IsSkip [line]
  | comment {line rest : Text} (h : Text.trim line = "/*".toList ++ rest)
      (hclosed : "*/".toList <:+: rest) : IsSkip [line]
  | longComment {line rest last : Text} {inner : List Text}
      (h : Text.trim line = "/*".toList ++ rest) (hopen : ¬ "*/".toList <:+: rest)
      (hinner : ∀ l ∈ inner, ¬ "*/".toList <:+: l) (hlast : "*/".toList <:+: last) :
      IsSkip (line :: inner ++ [last])

/-! ### Blocks -/

/-- The line carries the marker `@name`, the longest name that stands there, and behind it, but for
white space, the argument. -/
def Marks (line name argument : Text) : Prop :=
  ∃ tail, Text.trim line = '@' :: (name ++ tail) ∧ (∀ c ∈ name, isMarkerChar c = true) ∧
    (∀ c ∈ tail.head?, isMarkerChar c = false) ∧ Text.trim tail = argument

/-- The lines from that of a marker to the first of its block: the block begins behind the marker,
or on the first line below that is not blank. -/
inductive Lead (name : Text) : List Text → Bool → Text → Prop
  | inline {line first : Text} (h : Marks line name first) (hfirst : first ≠ []) :
      Lead name [line] true first
  | below {line first : Text} {blanks : List Text} (h : Marks line name [])
      (hblanks : ∀ l ∈ blanks, Text.isBlank l = true) (hfirst : Text.isBlank first = false) :
      Lead name (line :: blanks ++ [first]) false first

/-- The first line of a block holds nothing that the lines up to it do not hold. -/
theorem Lead.mem_of_mem {name first : Text} {lead : List Text} {inline : Bool} {c : Char}
    (h : Lead name lead inline first) (hc : c ∈ first) : ∃ line ∈ lead, c ∈ line := by
  cases h with
  | @inline line _ hmarks _ =>
      obtain ⟨tail, htrim, -, -, rfl⟩ := hmarks
      refine ⟨line, List.mem_singleton.2 rfl, Text.mem_of_mem_trim ?_⟩
      rw [htrim]
      simp [Text.mem_of_mem_trim hc]
  | below _ _ _ => exact ⟨first, by simp, hc⟩

/-- What may follow the closing quotes of a text: nothing, or a call to trim. -/
def IsTrailer (trailer : Text) : Prop :=
  Text.trim trailer = [] ∨ Text.trim trailer = ".trimIndent()".toList ∨
    Text.trim trailer = ".trimMargin()".toList

/-- The lines are a block of prose: a string from its opening quotes to the first quotes behind
them, on one line or on several. -/
inductive IsTextBlock : List Text → Text → Prop
  | short {lead : List Text} {inline : Bool} {first opening inside trailer : Text}
      (hlead : Lead "Text".toList lead inline first)
      (hopening : Text.trim first = textQuotes ++ opening)
      (hclose : Text.FirstAt textQuotes opening inside trailer) (htrailer : IsTrailer trailer) :
      IsTextBlock lead (Text.trim inside)
  | long {lead inner : List Text} {inline : Bool} {first opening last inside trailer : Text}
      (hlead : Lead "Text".toList lead inline first)
      (hopening : Text.trim first = textQuotes ++ opening) (hopen : ¬ textQuotes <:+: opening)
      (hinner : ∀ l ∈ inner, ¬ textQuotes <:+: l)
      (hclose : Text.FirstAt textQuotes last inside trailer) (htrailer : IsTrailer trailer) :
      IsTextBlock (lead ++ inner ++ [last]) (Text.dedent (opening :: inner ++ [inside]))

/-- The lines are a block of code: from its first line, which is no boundary if it stands below the
marker, to the one with which its braces match. -/
inductive IsCodeBlock (kind : CodeKind) : List Text → Text → Prop
  | mk {lead more : List Text} {inline : Bool} {first : Text}
      (hlead : Lead kind.marker lead inline first)
      (hfirst : inline = false → isBoundary (Text.trim first) = false)
      (hcloses : Braces.Closes (first :: more)) :
      IsCodeBlock kind (lead ++ more) (Reader.codeOf inline (first :: more))

/-! ### Items -/

/-- The items of a guide: the part in which each may stand, its lines, what it adds, and the part
that follows. -/
inductive Item : Part → List Text → Addition → Part → Prop
  | skip {part : Part} {lines : List Text} (h : IsSkip lines) : Item part lines .nothing part
  | directive {line : Text} {d : Directive} (h : "@file:".toList <+: Text.trim line)
      (hparse : Directive.parse (Text.trim line) = .ok d) :
      Item .preamble [line] (.directive d.name d.value) .preamble
  | importLine {line : Text} (h : "import ".toList <+: Text.trim line)
      (hkeep : ¬ "dokgen.annotations".toList <:+: Text.trim line) :
      Item .preamble [line] (.importLine (Text.trim line)) .preamble
  | annotations {line : Text} (h : "import ".toList <+: Text.trim line)
      (hdrop : "dokgen.annotations".toList <:+: Text.trim line) :
      Item .preamble [line] .nothing .preamble
  | package {line : Text} (h : "package ".toList <+: Text.trim line) :
      Item .preamble [line] .nothing .preamble
  | main {line : Text} (h : isMain line = true) : Item .preamble [line] .nothing .body
  | media {line argument path : Text} {kind : MediaKind} (h : Marks line kind.marker argument)
      (hpath : Literal.parse argument = .ok path) :
      Item .body [line] (.block (.media kind path)) .body
  | text {lines : List Text} {prose : Text} (h : IsTextBlock lines prose) :
      Item .body lines (.block (.text prose)) .body
  | code {lines : List Text} {kind : CodeKind} {code : Text} (h : IsCodeBlock kind lines code) :
      Item .body lines (.block (.code kind code)) .body
  | close {line : Text} (h : Text.trim line = ['\x7d']) : Item .body [line] .nothing .trailer

/-- A stretch of items, from one part of a guide to the same or a later one. -/
inductive Items : Part → List Text → List Addition → Part → Prop
  | nil (part : Part) : Items part [] [] part
  | cons {part next last : Part} {lines more : List Text} {addition : Addition}
      {additions : List Addition} (head : Item part lines addition next)
      (tail : Items next more additions last) :
      Items part (lines ++ more) (addition :: additions) last

namespace Items

variable {part next last : Part} {first second lines : List Text}
  {additions more : List Addition} {addition : Addition}

/-- One item is a stretch. -/
theorem of_item (h : Item part lines addition next) : Items part lines [addition] next := by
  have hcons := Items.cons h (.nil next)
  rwa [List.append_nil] at hcons

/-- **Joining**: a stretch that begins where another ends goes on from it. -/
theorem append (h : Items part first additions next) (k : Items next second more last) :
    Items part (first ++ second) (additions ++ more) last := by
  induction h with
  | nil _ => exact k
  | cons head _ ih =>
      rw [List.append_assoc, List.cons_append]
      exact .cons head (ih k)

/-- A stretch stays in the part where it begins, or leaves it at one of its items. -/
theorem stay_or_leave (h : Items part lines additions last) :
    ∃ stay : List (List Text), (∀ item ∈ stay, ∃ addition, Item part item addition part) ∧
      (lines = stay.flatten ∧ last = part ∨
        ∃ (cross rest : List Text) (next : Part) (addition : Addition) (more : List Addition),
          lines = stay.flatten ++ cross ++ rest ∧ next ≠ part ∧
          Item part cross addition next ∧ Items next rest more last) := by
  induction h with
  | nil _ => exact ⟨[], by simp, .inl ⟨rfl, rfl⟩⟩
  | @cons part next _ cross rest addition more head tail ih =>
      by_cases hnext : next = part
      · subst hnext
        obtain ⟨stay, hstay, hrest⟩ := ih
        refine ⟨cross :: stay, List.forall_mem_cons.2 ⟨⟨addition, head⟩, hstay⟩, ?_⟩
        rcases hrest with ⟨rfl, rfl⟩ | ⟨cross', rest', next', addition', more', rfl, hne, h, k⟩
        · exact .inl ⟨rfl, rfl⟩
        · exact .inr ⟨cross', rest', next', addition', more', by simp, hne, h, k⟩
      · exact ⟨[], by simp, .inr ⟨cross, rest, next, addition, more, by simp, hnext, head, tail⟩⟩

/-- Items of one part make a stretch of it. -/
theorem of_forall_mem {items : List (List Text)}
    (h : ∀ item ∈ items, ∃ addition, Item part item addition part) :
    ∃ additions, Items part items.flatten additions part := by
  induction items with
  | nil => exact ⟨[], .nil part⟩
  | cons item items ih =>
      obtain ⟨⟨addition, hitem⟩, hitems⟩ := List.forall_mem_cons.1 h
      obtain ⟨additions, hrest⟩ := ih hitems
      exact ⟨addition :: additions, .cons hitem hrest⟩

end Items

/-- The only items behind the closing `}` are blanks and comments. -/
theorem Item.skip_of_trailer {lines : List Text} {addition : Addition} {next : Part}
    (h : Item .trailer lines addition next) : IsSkip lines ∧ next = .trailer := by
  cases h with
  | skip h => exact ⟨h, rfl⟩

/-- The body is left at a line `}`. -/
theorem Item.close_of_body {lines : List Text} {addition : Addition} {next : Part}
    (h : Item .body lines addition next) (hnext : next ≠ .body) :
    ∃ line, lines = [line] ∧ Text.trim line = ['\x7d'] ∧ next = .trailer := by
  cases h with
  | close h => exact ⟨_, rfl, h, rfl⟩
  | _ => exact absurd rfl hnext

/-- The preamble is left at a line `fun main() {`. -/
theorem Item.main_of_preamble {lines : List Text} {addition : Addition} {next : Part}
    (h : Item .preamble lines addition next) (hnext : next ≠ .preamble) :
    ∃ line, lines = [line] ∧ isMain line = true ∧ next = .body := by
  cases h with
  | main h => exact ⟨_, rfl, h, rfl⟩
  | _ => exact absurd rfl hnext

/-- Lines that belong together before `fun main() {`. -/
def IsPreambleItem (lines : List Text) : Prop :=
  ∃ addition, Item .preamble lines addition .preamble

/-- Lines that belong together in the body of `fun main() {`. -/
def IsBodyItem (lines : List Text) : Prop :=
  ∃ addition, Item .body lines addition .body

/-- **The whole of a guide**: items of the preamble, the line `fun main() {`, items of the body, the
line `}`, then blanks and comments. -/
theorem items_iff {lines : List Text} :
    (∃ additions, Items .preamble lines additions .trailer) ↔
      ∃ (preamble body skips : List (List Text)) (main close : Text),
        lines = preamble.flatten ++ [main] ++ body.flatten ++ [close] ++ skips.flatten ∧
        (∀ item ∈ preamble, IsPreambleItem item) ∧ isMain main = true ∧
        (∀ item ∈ body, IsBodyItem item) ∧ Text.trim close = ['\x7d'] ∧
        ∀ item ∈ skips, IsSkip item := by
  constructor
  · rintro ⟨additions, h⟩
    obtain ⟨preamble, hpreamble, ⟨-, habsurd⟩ | ⟨_, _, _, _, _, rfl, hne, hcross, h⟩⟩ :=
      h.stay_or_leave
    · exact absurd habsurd (by decide)
    obtain ⟨main, rfl, hmain, rfl⟩ := hcross.main_of_preamble hne
    obtain ⟨body, hbody, ⟨-, habsurd⟩ | ⟨_, _, _, _, _, rfl, hne, hcross, h⟩⟩ := h.stay_or_leave
    · exact absurd habsurd (by decide)
    obtain ⟨close, rfl, hclose, rfl⟩ := hcross.close_of_body hne
    obtain ⟨skips, hskips, ⟨rfl, -⟩ | ⟨_, _, _, _, _, -, hne, hleave, -⟩⟩ := h.stay_or_leave
    · refine ⟨preamble, body, skips, main, close, by simp, hpreamble, hmain, hbody, hclose, ?_⟩
      intro item hitem
      obtain ⟨_, hskip⟩ := hskips item hitem
      exact hskip.skip_of_trailer.1
    · exact absurd hleave.skip_of_trailer.2 hne
  · rintro ⟨preamble, body, skips, main, close, rfl, hpreamble, hmain, hbody, hclose, hskips⟩
    obtain ⟨_, hpreamble⟩ := Items.of_forall_mem hpreamble
    obtain ⟨_, hbody⟩ := Items.of_forall_mem hbody
    obtain ⟨_, hskips⟩ : ∃ additions, Items .trailer skips.flatten additions .trailer :=
      Items.of_forall_mem fun item hitem => ⟨_, .skip (hskips item hitem)⟩
    exact ⟨_, (((hpreamble.append (.of_item (.main hmain))).append hbody).append
      (.of_item (.close hclose))).append hskips⟩

end Guide

end Guidebook
