import Guidebook.Toml.Quoted
import Guidebook.Toml.Scalar

/-!
# TOML Documents

Reading a document: statements `key = value` and headers, one on a line. Values may hold values, so
the reader is told how deep and how far it may go; the length of the document is always enough.
-/

namespace Guidebook.Toml

/-! ### Between tokens -/

/-- What follows the blanks at the beginning of a text. -/
def dropBlanks (t : Text) : Text :=
  t.dropWhile isBlankChar

/-- What follows the blanks, line ends and comments at the beginning of a text. None if a comment
holds a control character. -/
def dropLines? (inComment : Bool) : Text → Option Text
  | [] => some []
  | '\n' :: rest => dropLines? false rest
  | '\r' :: '\n' :: rest => dropLines? false rest
  | c :: rest =>
    if inComment then if isPrintable c then dropLines? true rest else none
    else if isBlankChar c then dropLines? false rest
    else if c = '#' then dropLines? true rest
    else some (c :: rest)

/-- What follows the rest of a line, in which a comment may stand but nothing else. -/
def dropLineRest? (t : Text) : Option Text :=
  match dropBlanks t with
  | '#' :: comment =>
    match comment.dropWhile isPrintable with
    | [] => some []
    | '\n' :: rest => some rest
    | '\r' :: '\n' :: rest => some rest
    | _ => none
  | [] => some []
  | '\n' :: rest => some rest
  | '\r' :: '\n' :: rest => some rest
  | _ => none

/-! ### Keys -/

/-- Whether a character can stand in a key without quotes. -/
def isKeyChar (c : Char) : Bool :=
  c.isAlphanum || c = '_' || c = '-'

/-- One part of a key, and what follows it. -/
def keyPart? (t : Text) : Option (Text × Text) :=
  match t.takeWhile isKeyChar with
  | [] => string? t
  | part => some (part, t.dropWhile isKeyChar)

/-- How many parts a key may have, and how many levels deep a value may go. -/
def deepest : Nat := 80

/-- The parts of a dotted key, at most as many as `bound` says, and what follows the blanks behind
it. -/
def keyParts? : Nat → Text → Option (List Text × Text)
  | 0, _ => none
  | bound + 1, t => do
    let (part, rest) ← keyPart? t
    match dropBlanks rest with
    | '.' :: rest =>
      let (parts, rest) ← keyParts? bound (dropBlanks rest)
      some (part :: parts, rest)
    | rest => some ([part], rest)

/-- The parts of a dotted key, and what follows the blanks behind it. -/
def key? (t : Text) : Option (List Text × Text) :=
  keyParts? deepest t

/-- A table after the statement that a dotted key has the given value. -/
def assignKey? (parts : List Text) (value : Node) (table : Node) : Option Node :=
  match parts.getLast? with
  | some key => Node.assign false parts.dropLast key value table
  | none => none

/-! ### Values -/

mutual

/-- The value at the beginning of a text, and what follows it. It may go as many levels deep as
`levels` says. -/
def value? : Nat → Nat → Text → Option (Node × Text)
  | 0, _, _ => none
  | _ + 1, 0, '[' :: _ => none
  | fuel + 1, levels + 1, '[' :: rest => do
    let (items, rest) ← items? fuel levels (← dropLines? false rest)
    some (.array items, rest)
  | _ + 1, 0, '\x7b' :: _ => none
  | fuel + 1, levels + 1, '\x7b' :: rest => do
    fields? fuel levels .emptyInline (← dropLines? false rest)
  | _ + 1, _, t =>
    if t.head? = some '"' ∨ t.head? = some '\'' then
      (anyString? t).map fun (content, rest) => (.text content, rest)
    else
      let length := scalarLength t
      (scalar? (t.take length)).map fun node => (node, t.drop length)

/-- The items of an array up to its closing bracket, and what follows it. -/
def items? : Nat → Nat → Text → Option (List Node × Text)
  | 0, _, _ => none
  | _ + 1, _, ']' :: rest => some ([], rest)
  | fuel + 1, levels, t => do
    let (item, rest) ← value? fuel levels t
    match ← dropLines? false rest with
    | ',' :: rest =>
      let (items, rest) ← items? fuel levels (← dropLines? false rest)
      some (item :: items, rest)
    | ']' :: rest => some ([item], rest)
    | _ => none

/-- The table in braces that begins with `table` and goes on up to the closing brace, and what
follows it. Lines may end between any two of its tokens. -/
def fields? : Nat → Nat → Node → Text → Option (Node × Text)
  | 0, _, _, _ => none
  | _ + 1, _, table, '\x7d' :: rest => some (table, rest)
  | fuel + 1, levels, table, t => do
    let (parts, rest) ← key? t
    let rest ← afterChar? '=' (← dropLines? false rest)
    let (value, rest) ← value? fuel levels (← dropLines? false rest)
    let table ← assignKey? parts value table
    match ← dropLines? false rest with
    | ',' :: rest => fields? fuel levels table (← dropLines? false rest)
    | '\x7d' :: rest => some (table, rest)
    | _ => none

end

/-! ### Statements -/

/-- The document in which the statements of a text follow on those of `document`; `header` is the
path of the header above them. -/
def statements? : Nat → Node → List Text → Text → Option Node
  | 0, _, _, _ => none
  | fuel + 1, document, header, t => do
    match ← dropLines? false t with
    | [] => some document
    | '[' :: '[' :: rest =>
      let (path, rest) ← key? (dropBlanks rest)
      let rest ← dropLineRest? (← afterChar? ']' (← afterChar? ']' rest))
      statements? fuel (← document.define true path) path rest
    | '[' :: rest =>
      let (path, rest) ← key? (dropBlanks rest)
      let rest ← dropLineRest? (← afterChar? ']' rest)
      statements? fuel (← document.define false path) path rest
    | t =>
      let (parts, rest) ← key? t
      let (value, rest) ← value? fuel deepest (dropBlanks (← afterChar? '=' rest))
      let rest ← dropLineRest? rest
      statements? fuel (← document.atHeader (assignKey? parts value) header) header rest

/-- A text without a byte order mark at its beginning. -/
def dropByteOrderMark : Text → Text
  | '\uFEFF' :: rest => rest
  | t => t

/-- The document that a text holds. -/
def parse? (t : Text) : Option Node :=
  let t := dropByteOrderMark t
  statements? (2 * t.length + 2) .empty [] t

end Guidebook.Toml
