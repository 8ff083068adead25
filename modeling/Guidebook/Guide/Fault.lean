import Guidebook.Directive.Basic
import Guidebook.Guide.Basic

/-!
# Faults of Guides

Why a text is not a guide, and at which line that shows. A source that cannot be turned into pages
and programs is rejected: at a line, with a message. The rest of the batch goes on without it.
-/

namespace Guidebook

/-- The rejection of a source. -/
structure Rejection where
  /-- The line, counted from 1, at which the problem shows. -/
  line : Nat
  message : Text
  deriving DecidableEq, Repr

/-- The rejection as one text. -/
def Rejection.display (rejection : Rejection) : Text :=
  "line ".toList ++ Text.ofNat rejection.line ++ ": ".toList ++ rejection.message

namespace Guide

/-- Why a text is not a guide. Each fault carries the part of the text that its wording cites. -/
inductive Fault where
  /-- A directive that cannot be read. -/
  | directive (line : Text) (error : DirectiveError)
  /-- A line before `fun main` that is no directive, import or package. -/
  | beforeMain (line : Text)
  /-- A line of the body that begins no block. -/
  | outsideBlock (line : Text)
  /-- Something follows the end of `fun main`. -/
  | afterMain
  /-- There is no `fun main`. -/
  | mainMissing
  /-- `fun main` does not end. -/
  | mainOpen
  /-- A comment does not end. -/
  | commentOpen
  /-- The path of an image or video is not a string literal. -/
  | notALiteral (found : Text)
  /-- The path of an image or video has a faulty escape. -/
  | escape (error : EscapeError)
  /-- There is no such marker. -/
  | unknownMarker (name : Text)
  /-- `@Text` without a string. -/
  | textMissing
  /-- The string of `@Text` does not end. -/
  | textOpen
  /-- Something other than a call to trim follows the string of `@Text`. -/
  | textTrailer (trailer : Text)
  /-- A code marker without code. -/
  | codeMissing (kind : CodeKind)
  /-- The braces of a code block do not match. -/
  | unbalanced (kind : CodeKind)
  deriving DecidableEq, Repr

/-- The wording of a fault. -/
def Fault.message : Fault → Text
  | .directive line error =>
    "malformed directive `".toList ++ line ++ "`: ".toList ++ error.message
  | .beforeMain line =>
    "unexpected `".toList ++ line ++ "` before `fun main() \x7b`".toList
  | .outsideBlock line => '`' :: line ++ "` is outside of an annotated block".toList
  | .afterMain => "unexpected content after the end of `fun main`".toList
  | .mainMissing => "missing `fun main() \x7b` entry point".toList
  | .mainOpen => "`fun main` is missing its closing `\x7d`".toList
  | .commentOpen => "unterminated block comment, missing closing `*/`".toList
  | .notALiteral found => "expected a string literal, found `".toList ++ found ++ ['`']
  | .escape error => error.message
  | .unknownMarker name => "unknown annotation `@".toList ++ name ++ ['`']
  | .textMissing => "`@Text` must be followed by a \"\"\" string".toList
  | .textOpen => "unterminated text block, missing closing \"\"\"".toList
  | .textTrailer trailer => "unexpected `".toList ++ trailer ++ "` after closing \"\"\"".toList
  | .codeMissing kind =>
    "`@".toList ++ kind.marker ++ "` is not followed by a code block".toList
  | .unbalanced kind =>
    "unbalanced braces in the `@".toList ++ kind.marker ++ "` block starting here".toList

/-- A fault and the line, counted from 1, at which it shows. -/
structure Error where
  line : Nat
  fault : Fault
  deriving DecidableEq, Repr

/-- The rejection of a text with a fault. -/
def Error.toRejection (error : Error) : Rejection :=
  ⟨error.line, error.fault.message⟩

end Guide

end Guidebook
