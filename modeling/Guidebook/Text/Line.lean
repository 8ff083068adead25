import Guidebook.Text.Basic

/-!
# Lines and White Space

Leaving out white space at the ends of a text, cutting a text into lines, unifying line ends, and
taking the common indentation off a block of lines. Indentation, blank lines and the trimming of
arguments all mean the characters with the property `White_Space`.

A line ends at a line feed, or at a carriage return and a line feed; the last line may lack
its end. A carriage return anywhere else belongs to its line.
-/

namespace Guidebook.Text

/-! ### White space -/

/-- The characters with the property `White_Space`. -/
def whiteSpaceIntervals : List (Nat × Nat) := [
  (0x9, 0xD), (0x20, 0x20), (0x85, 0x85), (0xA0, 0xA0), (0x1680, 0x1680), (0x2000, 0x200A),
  (0x2028, 0x2029), (0x202F, 0x202F), (0x205F, 0x205F), (0x3000, 0x3000)]

/-- Whether a character is white space. -/
def isSpace (c : Char) : Bool :=
  inIntervals c.toNat whiteSpaceIntervals

/-- The text without the white space in front. -/
def trimStart (t : Text) : Text :=
  t.dropWhile isSpace

/-- The text without the white space at its end. -/
def trimEnd (t : Text) : Text :=
  dropEndWhile isSpace t

/-- The text without the white space at both ends. -/
def trim (t : Text) : Text :=
  trimEnd (trimStart t)

/-- Whether a text is white space throughout. -/
def isBlank (t : Text) : Bool :=
  t.all isSpace

/-! ### Lines -/

/-- The lines of a text, without their line ends. -/
def lines : Text → List Text
  | [] => []
  | '\n' :: rest => [] :: lines rest
  | '\r' :: '\n' :: rest => [] :: lines rest
  | c :: rest =>
    match lines rest with
    | [] => [[c]]
    | line :: more => (c :: line) :: more

/-- The text with each carriage return, alone or before a line feed, turned into one line
feed: first the pairs, then the carriage returns that are left. -/
def unifyLineEnds (t : Text) : Text :=
  (replacePair '\r' '\n' '\n' t).map fun c => if c = '\r' then '\n' else c

/-- The line without one carriage return at its end. -/
def dropCarriageReturn (line : Text) : Text :=
  if line.getLast? = some '\r' then line.dropLast else line

/-! ### Indentation -/

/-- The number of white space characters in front of a line. -/
def indent (line : Text) : Nat :=
  (line.takeWhile isSpace).length

/-- The lines from the first to the last that is not blank. -/
def dropOuterBlank (block : List Text) : List Text :=
  ((block.dropWhile isBlank).reverse.dropWhile isBlank).reverse

/-- The least indentation of the lines that are not blank. -/
def commonIndent (block : List Text) : Nat :=
  ((block.filter fun line => !isBlank line).map indent).min?.getD 0

/-- The block as one text, without blank lines at its ends and without the indentation that all
its lines share. A blank line between others becomes empty. -/
def dedent (block : List Text) : Text :=
  let kept := dropOuterBlank block
  let width := commonIndent kept
  join ['\n'] (kept.map fun line => if isBlank line then [] else line.drop width)

end Guidebook.Text
