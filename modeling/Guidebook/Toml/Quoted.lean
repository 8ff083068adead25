import Guidebook.Toml.Node

/-!
# TOML Strings

Strings stand between double quotes, with escapes, or between single quotes, without. Between three
quotes of either kind a string may go on over several lines.
-/

namespace Guidebook.Toml

/-- Whether a character can stand in a string or comment: not a control character, except for the
tab. -/
def isPrintable (c : Char) : Bool :=
  c = '\t' || (decide (0x20 ≤ c.toNat) && c.toNat != 0x7F)

/-- Whether a character separates tokens on a line. -/
def isBlankChar (c : Char) : Bool :=
  c = ' ' || c = '\t'

/-- The value of a hexadecimal digit. -/
def hexValue? (c : Char) : Option Nat :=
  if c.isDigit then some (c.toNat - '0'.toNat)
  else if 'a' ≤ c.toLower ∧ c.toLower ≤ 'f' then some (c.toLower.toNat - 'a'.toNat + 10)
  else none

/-- The character whose code point the first `n` characters give in hexadecimal digits. -/
def codePoint? (n : Nat) (t : Text) : Option Char := do
  let digits := t.take n
  if digits.length = n then
    let values ← digits.mapM hexValue?
    let point := values.foldl (fun value digit => 16 * value + digit) 0
    if point.isValidChar then some (Char.ofNat point) else none
  else none

/-- How many characters of a text are blanks and line ends. -/
def whiteLength : Text → Nat
  | '\r' :: '\n' :: rest => whiteLength rest + 2
  | c :: rest => if isBlankChar c || c = '\n' then whiteLength rest + 1 else 0
  | [] => 0

/-- Whether a line ends behind blanks. -/
def endsLine (t : Text) : Bool :=
  match t.dropWhile isBlankChar with
  | '\n' :: _ => true
  | '\r' :: '\n' :: _ => true
  | _ => false

/-- What the text behind a backslash stands for, and how many of its characters belong to the
escape. At the end of a line of a string of several lines it stands for nothing, and takes the
blanks and line ends with it. -/
def escape? (multiLine : Bool) (t : Text) : Option (Text × Nat) :=
  match t with
  | 'b' :: _ => some (['\x08'], 1)
  | 't' :: _ => some (['\t'], 1)
  | 'n' :: _ => some (['\n'], 1)
  | 'f' :: _ => some (['\x0c'], 1)
  | 'r' :: _ => some (['\r'], 1)
  | 'e' :: _ => some (['\x1b'], 1)
  | '"' :: _ => some (['"'], 1)
  | '\\' :: _ => some (['\\'], 1)
  | 'x' :: rest => (codePoint? 2 rest).map fun c => ([c], 3)
  | 'u' :: rest => (codePoint? 4 rest).map fun c => ([c], 5)
  | 'U' :: rest => (codePoint? 8 rest).map fun c => ([c], 9)
  | t => if multiLine && endsLine t then some ([], whiteLength t) else none

/-- The rest of a string, and what follows its closing quotes. The first `skip` characters belong to
an escape that has been read already. In front of three closing quotes two more may belong to the
string. -/
def stringFrom (quote : Char) (multiLine : Bool) : Nat → Text → Option (Text × Text)
  | _, [] => none
  | skip + 1, _ :: rest => stringFrom quote multiLine skip rest
  | 0, c :: rest =>
    if c = quote then
      if multiLine then
        match rest with
        | d :: e :: after =>
          if d = quote ∧ e = quote then
            let extra := min 2 (after.takeWhile (· = quote)).length
            some (List.replicate extra quote, after.drop extra)
          else prepend [c] (stringFrom quote multiLine 0 rest)
        | _ => none
      else some ([], rest)
    else if c = '\\' ∧ quote = '"' then
      match escape? multiLine rest with
      | some (meaning, length) => prepend meaning (stringFrom quote multiLine length rest)
      | none => none
    else if c = '\n' ∨ (c = '\r' ∧ rest.head? = some '\n') then
      if multiLine then prepend [c] (stringFrom quote multiLine 0 rest) else none
    else if isPrintable c then prepend [c] (stringFrom quote multiLine 0 rest)
    else none
where
  /-- The string with some characters in front. -/
  prepend (front : Text) (string : Option (Text × Text)) : Option (Text × Text) :=
    string.map fun (t, after) => (front ++ t, after)

/-- A text without a line end at its beginning. -/
def dropLineEnd : Text → Text
  | '\n' :: rest => rest
  | '\r' :: '\n' :: rest => rest
  | t => t

/-- The string on one line whose quotes open a text, and what follows it. -/
def string? : Text → Option (Text × Text)
  | '"' :: rest => stringFrom '"' false 0 rest
  | '\'' :: rest => stringFrom '\'' false 0 rest
  | _ => none

/-- The string, of one line or several, whose quotes open a text, and what follows it. -/
def anyString? : Text → Option (Text × Text)
  | '"' :: '"' :: '"' :: rest => stringFrom '"' true 0 (dropLineEnd rest)
  | '\'' :: '\'' :: '\'' :: rest => stringFrom '\'' true 0 (dropLineEnd rest)
  | t => string? t

end Guidebook.Toml
