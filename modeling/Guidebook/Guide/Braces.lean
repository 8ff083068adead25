import Guidebook.Text.Basic

/-!
# Counting Braces

A code block ends where its braces are balanced. Braces in string and character literals and in
line comments do not count. A raw string, between two runs of three quotes, may go on over
several lines; every other literal ends with its line at the latest.
-/

namespace Guidebook

/-- What a character of a line of code stands in. -/
inductive CodeContext where
  | code
  /-- A string or character literal; whether the character before it was an escaping backslash. -/
  | literal (delimiter : Char) (escaped : Bool)
  /-- A raw string. -/
  | raw
  deriving DecidableEq, Repr

/-- How many braces are open, and whether a raw string is. -/
structure Braces where
  depth : Int
  inRaw : Bool
  deriving DecidableEq, Repr

namespace Braces

/-- The count before any code. -/
def start : Braces := ⟨0, false⟩

/-- The count after the rest of a line. -/
def scan : CodeContext → Int → Text → Braces
  | context, depth, [] => ⟨depth, context = .raw⟩
  | .raw, depth, '"' :: '"' :: '"' :: rest => scan .code depth rest
  | .raw, depth, _ :: rest => scan .raw depth rest
  | .literal delimiter true, depth, _ :: rest => scan (.literal delimiter false) depth rest
  | .literal delimiter false, depth, c :: rest =>
    if c = '\\' then scan (.literal delimiter true) depth rest
    else if c = delimiter then scan .code depth rest
    else scan (.literal delimiter false) depth rest
  | .code, depth, '"' :: '"' :: '"' :: rest => scan .raw depth rest
  | .code, depth, '/' :: '/' :: _ => ⟨depth, false⟩
  | .code, depth, c :: rest =>
    if c = '"' ∨ c = '\'' then scan (.literal c false) depth rest
    else if c = '\x7b' then scan .code (depth + 1) rest
    else if c = '\x7d' then scan .code (depth - 1) rest
    else scan .code depth rest

/-- The count after one more line. -/
def addLine (braces : Braces) (line : Text) : Braces :=
  scan (if braces.inRaw then .raw else .code) braces.depth line

/-- Whether a brace or a raw string is open. -/
def isOpen (braces : Braces) : Bool :=
  decide (0 < braces.depth) || braces.inRaw

end Braces

end Guidebook
