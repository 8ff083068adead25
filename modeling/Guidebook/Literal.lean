import Guidebook.Text.Basic

/-!
# String Literals

A string literal stands between double quotes. Inside, a backslash begins an escape: a letter or
sign that stands for a character, or `\u{...}` with the hexadecimal number of a code point.
-/

namespace Guidebook

/-! ### Hexadecimal numbers -/

/-- Why a text is not a hexadecimal number of 32 bits. -/
inductive HexError where
  | empty
  | invalidDigit
  | tooLarge
  deriving DecidableEq, Repr

/-- The wording of a number error. -/
def HexError.message : HexError → Text
  | .empty => "cannot parse integer from empty string".toList
  | .invalidDigit => "invalid digit found in string".toList
  | .tooLarge => "number too large to fit in target type".toList

/-- The value of a hexadecimal digit, in either case. -/
def hexDigit? (c : Char) : Option Nat :=
  if '0' ≤ c ∧ c ≤ '9' then some (c.toNat - '0'.toNat)
  else if 'a' ≤ c ∧ c ≤ 'f' then some (c.toNat - 'a'.toNat + 10)
  else if 'A' ≤ c ∧ c ≤ 'F' then some (c.toNat - 'A'.toNat + 10)
  else none

/-- The number that `value` becomes when hexadecimal digits are written behind it, as long as it
stays below 2 ^ 32. The first digit at fault decides the error. -/
def readHexDigits (value : Nat) : Text → Except HexError Nat
  | [] => .ok value
  | c :: rest =>
    match hexDigit? c with
    | none => .error .invalidDigit
    | some digit =>
      if 16 * value + digit < 2 ^ 32 then readHexDigits (16 * value + digit) rest
      else .error .tooLarge

/-- A hexadecimal number of 32 bits; one `+` may stand in front. -/
def readHex : Text → Except HexError Nat
  | [] => .error .empty
  | ['+'] => .error .invalidDigit
  | '+' :: digits => readHexDigits 0 digits
  | digits => readHexDigits 0 digits

/-! ### Escapes -/

/-- What is wrong with an escape. -/
inductive EscapeFault where
  /-- The character stands for nothing behind a backslash; none at the end of the text. -/
  | unknown (letter : Option Char)
  /-- `\u` is not followed by an opening brace. -/
  | braceMissing
  /-- The braces hold no hexadecimal number. -/
  | notHex (digits : Text) (cause : HexError)
  /-- The number is not that of a character. -/
  | notACharacter (point : Nat)
  deriving DecidableEq, Repr

/-- A fault in an escape of a literal, and the position of the character behind its backslash. -/
structure EscapeError where
  literal : Text
  position : Nat
  fault : EscapeFault
  deriving DecidableEq, Repr

/-- The wording of an escape error. -/
def EscapeError.message (e : EscapeError) : Text :=
  let place := " at ".toList ++ Text.ofNat e.position ++ " in ".toList ++ e.literal
  match e.fault with
  | .unknown letter => "invalid escape \\".toList ++ letter.toList ++ place
  | .braceMissing =>
    "\\u could not be parsed".toList ++ place
      ++ ": expected '\x7b' character in unicode escape".toList
  | .notHex digits cause =>
    "\\u could not be parsed".toList ++ place ++ ": could not parse ".toList ++ digits
      ++ " as u32 hex: ".toList ++ cause.message
  | .notACharacter point =>
    "\\u could not be parsed".toList ++ place ++ ": could not parse ".toList ++ Text.ofNat point
      ++ " as a unicode char".toList

/-- The character that a letter or sign stands for behind a backslash. -/
def simpleEscape? : Char → Option Char
  | 'a' => some '\x07'
  | 'b' => some '\x08'
  | 'v' => some '\x0b'
  | 'f' => some '\x0c'
  | 'n' => some '\n'
  | 'r' => some '\r'
  | 't' => some '\t'
  | 'e' => some '\x1b'
  | 'E' => some '\x1b'
  | '\\' => some '\\'
  | '\'' => some '\''
  | '"' => some '"'
  | '$' => some '$'
  | '`' => some '`'
  | ' ' => some ' '
  | _ => none

/-- The character that the text behind `\u` names, and how many characters of the text name it.
The number runs to the next closing brace, or to the end of the text if there is none. -/
def codePointEscape : Text → Except EscapeFault (Char × Nat)
  | '\x7b' :: rest =>
    let digits := rest.takeWhile (· ≠ '\x7d')
    match readHex digits with
    | .error cause => .error (.notHex digits cause)
    | .ok point =>
      if point.isValidChar then .ok (Char.ofNat point, digits.length + 2)
      else .error (.notACharacter point)
  | _ => .error .braceMissing

namespace Literal

/-- The content of a literal from `position` on, up to its closing quote. The first `skip`
characters belong to an escape that has been read already. -/
def contentFrom (literal : Text) : Nat → Nat → Text → Except EscapeError Text
  | _, _, [] => .ok []
  | position, skip + 1, _ :: rest => contentFrom literal (position + 1) skip rest
  | position, 0, c :: rest =>
    if c = '"' then .ok []
    else if c = '\\' then
      match rest with
      | [] => .error ⟨literal, position, .unknown none⟩
      | letter :: tail =>
        if letter = 'u' then
          match codePointEscape tail with
          | .error fault => .error ⟨literal, position + 1, fault⟩
          | .ok (character, length) =>
            (character :: ·) <$> contentFrom literal (position + 1) (length + 1) rest
        else
          match simpleEscape? letter with
          | some character => (character :: ·) <$> contentFrom literal (position + 1) 1 rest
          | none => .error ⟨literal, position + 1, .unknown (some letter)⟩
    else (c :: ·) <$> contentFrom literal (position + 1) 0 rest

/-- The content of a literal, its escapes resolved. -/
def unescape (literal : Text) : Except EscapeError Text :=
  contentFrom literal 1 0 literal.tail

/-- What stands between the quotes of a literal. -/
def inner (literal : Text) : Text :=
  literal.tail.dropLast

/-- The content of a literal. One without a backslash is its own content. -/
def content (literal : Text) : Except EscapeError Text :=
  if '\\' ∈ inner literal then unescape literal else .ok (inner literal)

end Literal

end Guidebook
