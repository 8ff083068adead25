import Guidebook.Guide.Braces
import Guidebook.Guide.Fault
import Guidebook.Text.Alphanumeric
import Guidebook.Text.Line

/-!
# Reading Guides

A guide is read line by line. Between its parts lie blank lines and comments. The *preamble* holds
directives, imports and the package; the *body* is that of `fun main() {` and holds the annotated
blocks; after its closing `}` comes the *trailer*, with nothing in it.

Reading is a machine that is fed the lines in order: `Reader.step` says what one line does to it,
`Reader.finish` what remains to be said when there are no more lines. By `Reader.run_append` the
lines can be fed in parts.
-/

namespace Guidebook.Guide

/-- The parts of a guide. -/
inductive Part where
  | preamble
  | body
  | trailer
  deriving DecidableEq, Repr

/-- What the reader is in the middle of. -/
inductive Pending where
  /-- Nothing: the next line begins an item. -/
  | item
  /-- A comment that began at the line `opened`. -/
  | comment (opened : Nat)
  /-- A marker `@Text` at the line `marker`, whose string is still to come. -/
  | textMarker (marker : Nat)
  /-- The string of a `@Text`, which began at the line `opened` and has these lines so far. -/
  | text (opened : Nat) (block : List Text)
  /-- A code marker at the line `marker`, whose code is still to come. -/
  | codeMarker (kind : CodeKind) (marker : Nat)
  /-- A code block, which began at the line `opened`, behind its marker if `inline`, and has
  these lines so far. -/
  | code (kind : CodeKind) (opened : Nat) (inline : Bool) (braces : Braces) (block : List Text)
  deriving DecidableEq, Repr

/-- A reader of a guide. -/
structure Reader where
  /-- How many lines have been read. -/
  line : Nat
  part : Part
  pending : Pending
  /-- What the guide has said so far. -/
  guide : Guide
  deriving DecidableEq

/-! ### Kinds of lines -/

/-- The quotes around the string of a `@Text`. -/
def textQuotes : Text := "\"\"\"".toList

/-- Whether a line, its white space left out, is `fun main() {`. -/
def isMain (line : Text) : Bool :=
  line.filter (fun c => !Text.isSpace c) = "funmain()\x7b".toList

/-- Whether a trimmed line cannot be the first of a code block. -/
def isBoundary (line : Text) : Bool :=
  line = ['\x7d'] || line.head? = some '@'

/-- Whether a character belongs to the name of a marker. -/
def isMarkerChar (c : Char) : Bool :=
  Text.isLetterOrNumber c || c = '.'

namespace Reader

/-- The reader of a guide before its first line. -/
def start : Reader := ⟨0, .preamble, .item, .empty⟩

/-- The reader after a line that adds nothing. -/
def skip (r : Reader) : Reader :=
  { r with line := r.line + 1 }

/-- The reader after a line that leaves it in the middle of something. -/
def await (r : Reader) (pending : Pending) : Reader :=
  { r with line := r.line + 1, pending }

/-- The reader after the last line of a block. -/
def close (r : Reader) (block : Block) : Reader :=
  { r with line := r.line + 1, pending := .item, guide := r.guide.addBlock block }

/-- The error at a line. -/
def fail {α : Type} (line : Nat) (fault : Fault) : Except Error α :=
  .error ⟨line, fault⟩

/-! ### Text blocks -/

/-- What follows the closing quotes of a text has to be nothing, or a call to trim. -/
def checkTrailer (line : Nat) (trailer : Text) : Except Error Unit :=
  let call := Text.trim trailer
  if call = [] ∨ call = ".trimIndent()".toList ∨ call = ".trimMargin()".toList then .ok ()
  else fail line (.textTrailer call)

/-- The line that holds the opening quotes, from the quotes on. -/
def openText (r : Reader) (opening : Text) : Except Error Reader :=
  let line := r.line + 1
  match textQuotes.isPrefixOf? opening with
  | none => fail line .textMissing
  | some first =>
    match Text.cut textQuotes first with
    | none => .ok (r.await (.text line [first]))
    | some (inside, trailer) => do
      checkTrailer line trailer
      return r.close (.text (Text.trim inside))

/-- A line inside the string of a text. -/
def textLine (r : Reader) (opened : Nat) (block : List Text) (line : Text) :
    Except Error Reader :=
  match Text.cut textQuotes line with
  | none => .ok (r.await (.text opened (block ++ [line])))
  | some (inside, trailer) => do
    checkTrailer (r.line + 1) trailer
    return r.close (.text (Text.dedent (block ++ [inside])))

/-! ### Code blocks -/

/-- The code of a block. The indentation of a line behind the marker says nothing about that of
the lines below it. -/
def codeOf (inline : Bool) (block : List Text) : Text :=
  match inline, block with
  | true, first :: more =>
    let below := Text.dedent more
    if below = [] then first else first ++ '\n' :: below
  | _, block => Text.dedent block

/-- One more line of code, the first one included. The block ends with the first line that
leaves no brace and no raw string open. -/
def codeLine (r : Reader) (kind : CodeKind) (opened : Nat) (inline : Bool) (braces : Braces)
    (block : List Text) (line : Text) : Except Error Reader :=
  let braces := braces.addLine line
  let block := block ++ [line]
  if braces.isOpen then .ok (r.await (.code kind opened inline braces block))
  else if braces.depth < 0 then fail opened (.unbalanced kind)
  else .ok (r.close (.code kind (codeOf inline block)))

/-! ### Markers -/

/-- The path of an image or video. -/
def mediaLine (r : Reader) (kind : MediaKind) (argument : Text) : Except Error Reader :=
  match Literal.parse argument with
  | .ok path => .ok (r.close (.media kind path))
  | .error .notALiteral => fail (r.line + 1) (.notALiteral argument)
  | .error (.escape e) => fail (r.line + 1) (.escape e)

/-- A line that begins with `@`, which is followed by `marker`. -/
def markerLine (r : Reader) (marker : Text) : Except Error Reader :=
  let name := marker.takeWhile isMarkerChar
  let rest := Text.trim (marker.dropWhile isMarkerChar)
  let line := r.line + 1
  if name = "Text".toList then
    if rest = [] then .ok (r.await (.textMarker line)) else r.openText rest
  else if name = MediaKind.image.marker then r.mediaLine .image rest
  else if name = MediaKind.video.marker then r.mediaLine .video rest
  else
    match CodeKind.ofMarker? name with
    | none => fail line (.unknownMarker name)
    | some kind =>
      if rest = [] then .ok (r.await (.codeMarker kind line))
      else r.codeLine kind line true .start [] rest

/-! ### Items -/

/-- The directive that a text holds, which stands at the given line. -/
def directiveAt (line : Nat) (t : Text) : Except Error Directive :=
  match Directive.parse t with
  | .error e => fail line (.directive (Text.trim t) e)
  | .ok d => .ok d

/-- A trimmed line of the preamble. -/
def preambleLine (r : Reader) (line : Text) : Except Error Reader :=
  if "@file:".toList.isPrefixOf line then
    match directiveAt (r.line + 1) line with
    | .error e => .error e
    | .ok d => .ok { r.skip with guide := r.guide.addDirective d.name d.value }
  else if "import ".toList.isPrefixOf line then
    if Text.has "dokgen.annotations".toList line then .ok r.skip
    else .ok { r.skip with guide := r.guide.addImport line }
  else if isMain line then .ok { r.skip with part := .body }
  else if "package ".toList.isPrefixOf line then .ok r.skip
  else fail (r.line + 1) (.beforeMain line)

/-- A trimmed line of the body. -/
def bodyLine (r : Reader) (line : Text) : Except Error Reader :=
  if line = ['\x7d'] then .ok { r.skip with part := .trailer }
  else
    match line with
    | '@' :: marker => r.markerLine marker
    | _ => fail (r.line + 1) (.outsideBlock line)

/-- A trimmed line between items, or the first of an item. -/
def itemLine (r : Reader) (line : Text) : Except Error Reader :=
  match line with
  | [] => .ok r.skip
  | '/' :: '/' :: _ => .ok r.skip
  | '/' :: '*' :: rest =>
    if Text.has "*/".toList rest then .ok r.skip else .ok (r.await (.comment (r.line + 1)))
  | line =>
    match r.part with
    | .preamble => r.preambleLine line
    | .body => r.bodyLine line
    | .trailer => fail (r.line + 1) .afterMain

/-! ### The machine -/

/-- The reader after one more line. -/
def step (r : Reader) (line : Text) : Except Error Reader :=
  match r.pending with
  | .item => r.itemLine (Text.trim line)
  | .comment _ =>
    if Text.has "*/".toList line then .ok (r.await .item) else .ok r.skip
  | .textMarker marker =>
    if Text.isBlank line then .ok r.skip
    else if textQuotes.isPrefixOf (Text.trim line) then r.openText (Text.trim line)
    else fail marker .textMissing
  | .text opened block => r.textLine opened block line
  | .codeMarker kind marker =>
    if Text.isBlank line then .ok r.skip
    else if isBoundary (Text.trim line) then fail marker (.codeMissing kind)
    else r.codeLine kind (r.line + 1) false .start [] line
  | .code kind opened inline braces block => r.codeLine kind opened inline braces block line

/-- The guide, when there are no more lines. A guide that lacks its end is at fault at its last
line, anything else at the line where it began. -/
def finish (r : Reader) : Except Error Guide :=
  match r.pending, r.part with
  | .item, .preamble => fail (max 1 r.line) .mainMissing
  | .item, .body => fail (max 1 r.line) .mainOpen
  | .item, .trailer => .ok r.guide
  | .comment opened, _ => fail opened .commentOpen
  | .textMarker marker, _ => fail marker .textMissing
  | .text opened _, _ => fail opened .textOpen
  | .codeMarker kind marker, _ => fail marker (.codeMissing kind)
  | .code kind opened _ _ _, _ => fail opened (.unbalanced kind)

/-- The reader after some more lines. -/
def run (r : Reader) (lines : List Text) : Except Error Reader :=
  lines.foldlM step r

/-- Reading some lines and then others is reading them in a row. -/
theorem run_append (r : Reader) (first second : List Text) :
    r.run (first ++ second) = (r.run first).bind fun r => r.run second :=
  List.foldlM_append

end Reader

/-- The lines of a source, without carriage returns at their ends. -/
def sourceLines (content : Text) : List Text :=
  (Text.lines content).map Text.dropCarriageReturn

/-- The guide that the lines make up. -/
def ofLines (lines : List Text) : Except Error Guide := do
  (← Reader.start.run lines).finish

/-- The guide that a source holds. -/
def read (content : Text) : Except Error Guide :=
  ofLines (sourceLines content)

end Guidebook.Guide
