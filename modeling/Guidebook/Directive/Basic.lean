import Guidebook.Directive.Lexeme
import Guidebook.Literal

/-!
# Directives

A directive `@file:Name(arguments)` gives a name a value. Its arguments are string literals and
numbers, separated by commas; the value is their contents, joined by `, `.
-/

namespace Guidebook

/-- A name and its value. -/
structure Directive where
  name : Text
  value : Text
  deriving DecidableEq, Repr

/-- Why a line is not a directive. -/
inductive DirectiveError where
  /-- The text is no lexeme. -/
  | unexpected (text : Text)
  | targetMissing
  | colonMissing
  | nameMissing
  | openingMissing
  | argumentMissing
  | closingMissing
  /-- Something follows the closing parenthesis. -/
  | notAtEnd
  /-- An argument has a faulty escape. -/
  | escape (e : EscapeError)
  deriving DecidableEq, Repr

/-- The wording of a directive error. -/
def DirectiveError.message : DirectiveError → Text
  | .unexpected text => "unexpected `".toList ++ text ++ ['`']
  | .targetMissing => "expected `@file`".toList
  | .colonMissing => "expected `:` after `@file`".toList
  | .nameMissing => "expected a directive name".toList
  | .openingMissing => "expected `(` after the name".toList
  | .argumentMissing => "expected a string argument".toList
  | .closingMissing => "expected `,` or `)`".toList
  | .notAtEnd => "unexpected content after `)`".toList
  | .escape e => e.message

namespace Directive

/-- What follows the lexeme `expected`, which has to come next. Text that is no lexeme is
reported as such. -/
def after (expected : Lexeme) (reason : DirectiveError) :
    List Lexeme → Except DirectiveError (List Lexeme)
  | .unknown text :: _ => .error (.unexpected text)
  | lexeme :: rest => if lexeme = expected then .ok rest else .error reason
  | [] => .error reason

/-- The identifier that has to come next, and what follows it. -/
def nameAndRest : List Lexeme → Except DirectiveError (Text × List Lexeme)
  | .unknown text :: _ => .error (.unexpected text)
  | .identifier name :: rest => .ok (name, rest)
  | _ => .error .nameMissing

/-- The contents of the arguments up to the closing parenthesis, and what follows it. Only in
place of the first argument may the parenthesis close at once. -/
def arguments (isFirst : Bool) : List Lexeme → Except DirectiveError (List Text × List Lexeme)
  | .unknown text :: _ => .error (.unexpected text)
  | .closing :: rest => if isFirst then .ok ([], rest) else .error .argumentMissing
  | .literal literal :: rest =>
    match Literal.content literal with
    | .error e => .error (.escape e)
    | .ok value => more value rest
  | .number digits :: rest => more digits rest
  | _ => .error .argumentMissing
where
  /-- The arguments from `value` on, which stands before the rest. -/
  more (value : Text) : List Lexeme → Except DirectiveError (List Text × List Lexeme)
  | .unknown text :: _ => .error (.unexpected text)
  | .comma :: rest =>
    (arguments false rest).map fun (values, rest) => (value :: values, rest)
  | .closing :: rest => .ok ([value], rest)
  | _ => .error .closingMissing

/-- Nothing may come next. -/
def atEnd : List Lexeme → Except DirectiveError Unit
  | .unknown text :: _ => .error (.unexpected text)
  | _ :: _ => .error .notAtEnd
  | [] => .ok ()

/-- The directive that the lexemes make up. -/
def ofLexemes (lexemes : List Lexeme) : Except DirectiveError Directive := do
  let lexemes ← after .target .targetMissing lexemes
  let lexemes ← after .colon .colonMissing lexemes
  let (name, lexemes) ← nameAndRest lexemes
  let lexemes ← after .opening .openingMissing lexemes
  let (values, lexemes) ← arguments true lexemes
  atEnd lexemes
  return ⟨name, Text.join ", ".toList values⟩

/-- The directive that a text holds. -/
def parse (t : Text) : Except DirectiveError Directive :=
  ofLexemes (Lexeme.list t)

end Directive

/-- Why a text is not one string literal. -/
inductive LiteralError where
  | notALiteral
  | escape (e : EscapeError)
  deriving DecidableEq, Repr

/-- The content of a text that is one string literal from its first to its last character. -/
def Literal.parse (t : Text) : Except LiteralError Text :=
  if Lexeme.list t = [.literal t] then
    match Literal.content t with
    | .error e => .error (.escape e)
    | .ok value => .ok value
  else .error .notALiteral

end Guidebook
