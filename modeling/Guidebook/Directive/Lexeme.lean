import Guidebook.Text.Basic

/-!
# The Lexemes of a Directive

A directive such as `@file:Title("Basics")` is read as a sequence of lexemes. Each is the longest
that begins at its place. Where none begins, the characters that could still have become one are
passed on as an unknown lexeme, so that no part of the line is lost but the blanks in between.
-/

namespace Guidebook

/-- A piece of a directive. -/
inductive Lexeme where
  /-- `@file` -/
  | target
  | colon
  | opening
  | closing
  | comma
  | identifier (text : Text)
  /-- A string literal, with its quotes. -/
  | literal (text : Text)
  | number (text : Text)
  /-- Text that is no lexeme. -/
  | unknown (text : Text)
  deriving DecidableEq, Repr

namespace Lexeme

/-- Whether a character separates lexemes. -/
def isSeparator (c : Char) : Bool :=
  c = ' ' || c = '\t' || c = '\r'

/-- Whether an identifier can begin with the character. -/
def beginsIdentifier (c : Char) : Bool :=
  c.isAlpha || c = '_'

/-- Whether the character can stand inside an identifier. -/
def continuesIdentifier (c : Char) : Bool :=
  c.isAlphanum || c = '_' || c = '.'

/-- How many characters two texts have in common at their beginnings. -/
def commonLength : Text → Text → Nat
  | a :: s, b :: t => if a = b then commonLength s t + 1 else 0
  | _, _ => 0

/-- How many characters behind an opening quote belong to the literal, up to its closing quote;
and whether there is one. A backslash takes the next character with it, unless that is a line
feed. -/
def literalLength : Text → Nat × Bool
  | [] => (0, false)
  | ['\\'] => (1, false)
  | '\\' :: c :: rest =>
    if c = '\n' then (1, false)
    else
      match literalLength rest with
      | (length, closed) => (length + 2, closed)
  | c :: rest =>
    if c = '"' then (1, true)
    else
      match literalLength rest with
      | (length, closed) => (length + 1, closed)

/-- The lexeme that begins with `c`, and how many of the characters behind `c` belong to it. -/
def first (c : Char) (rest : Text) : Lexeme × Nat :=
  if c = '@' then
    let length := commonLength "file".toList rest
    if length = 4 then (.target, 4) else (.unknown (c :: rest.take length), length)
  else if c = ':' then (.colon, 0)
  else if c = '(' then (.opening, 0)
  else if c = ')' then (.closing, 0)
  else if c = ',' then (.comma, 0)
  else if c = '"' then
    match literalLength rest with
    | (length, true) => (.literal (c :: rest.take length), length)
    | (length, false) => (.unknown (c :: rest.take length), length)
  else if c.isDigit then
    let digits := rest.takeWhile Char.isDigit
    (.number (c :: digits), digits.length)
  else if c = '-' then
    let digits := rest.takeWhile Char.isDigit
    (if digits = [] then .unknown [c] else .number (c :: digits), digits.length)
  else if beginsIdentifier c then
    let more := rest.takeWhile continuesIdentifier
    (.identifier (c :: more), more.length)
  else (.unknown [c], 0)

/-- The lexemes of a text, without its first `skip` characters, which belong to a lexeme that has
been read already. -/
def listFrom : Nat → Text → List Lexeme
  | _, [] => []
  | skip + 1, _ :: rest => listFrom skip rest
  | 0, c :: rest =>
    if isSeparator c then listFrom 0 rest
    else
      match first c rest with
      | (lexeme, length) => lexeme :: listFrom length rest

/-- The lexemes of a text. -/
def list (t : Text) : List Lexeme :=
  listFrom 0 t

end Lexeme

end Guidebook
