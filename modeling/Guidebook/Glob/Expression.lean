import Guidebook.Glob.Basis

/-!
# Patterns as Regular Expressions

A pattern whose match depends on all of a path stands for a regular expression over the bytes of the
path. Such an expression may be nested 250 levels deep at most, which bounds how deep the braces of
a pattern can be nested.

Each group, each choice, each repetition, each class, and each sequence of more than one element
counts as a level.
-/

namespace Guidebook.Glob

/-! ### The text of an expression -/

/-- The characters that mean something in an expression. -/
def isOperator (c : Char) : Bool :=
  "\\.+*?()|[]\x7b\x7d^$#&-~".toList.contains c

/-- The two hexadecimal digits of a byte. -/
def byteDigits (b : Byte) : Text :=
  (Nat.toDigits 16 b).leftpad 2 '0'

/-- A character in an expression. Beyond ASCII its bytes are written as numbers. -/
def quoted (c : Char) : Text :=
  if c.toNat < 0x80 then if isOperator c then ['\\', c] else [c]
  else (Text.bytes [c]).flatMap fun b => '\\' :: 'x' :: byteDigits b

/-- A range of a class in an expression. -/
def quotedRange (range : Char × Char) : Text :=
  if range.1 = range.2 then quoted range.1 else quoted range.1 ++ '-' :: quoted range.2

mutual

/-- The expression of a piece. -/
def Piece.expression : Piece → Text
  | .literal c => quoted c
  | .anyByte => ['.']
  | .anyBytes => ".*".toList
  | .leadingSegments => "(?:/?|.*/)".toList
  | .trailingSegments => "/.*".toList
  | .innerSegments => "(?:/|/.*/)".toList
  | .byteClass negated ranges =>
    (if negated then "[^".toList else ['[']) ++ ranges.flatMap quotedRange ++ [']']
  | .branches groups =>
    if areVoid groups then []
    else "(?:".toList ++ Text.join ['|'] (branchExpressions groups) ++ [')']

/-- The expression of pieces, one after the other. -/
def expressionOf : List Piece → Text
  | [] => []
  | piece :: pieces => piece.expression ++ expressionOf pieces

/-- The expressions of the branches that say something. -/
def branchExpressions : List (List Piece) → List Text
  | [] => []
  | branch :: more =>
    if isVoid branch then branchExpressions more
    else expressionOf branch :: branchExpressions more

end

/-- The expression that the pattern stands for. -/
def expression (glob : Glob) : Text :=
  "(?-u)^".toList ++ expressionOf glob.pieces ++ ['$']

/-! ### Nesting -/

/-- How many elements a part of an expression has, and how many levels deep the deepest of them
goes. -/
structure Extent where
  elements : Nat
  levels : Nat
  deriving DecidableEq, Repr

namespace Extent

/-- The extent of two parts, one after the other. -/
def append (a b : Extent) : Extent :=
  ⟨a.elements + b.elements, max a.levels b.levels⟩

/-- How many levels deep a part goes where it stands as one: several elements are a level. -/
def depth (extent : Extent) : Nat :=
  if extent.elements ≤ 1 then extent.levels else extent.levels + 1

/-- The extent of a group whose branches have the given depths. -/
def ofBranches (depths : List Nat) : Extent :=
  let deepest := depths.foldl max 0
  match depths with
  | [] => ⟨0, 0⟩
  | [_] => ⟨1, deepest + 1⟩
  | _ => ⟨1, deepest + 2⟩

end Extent

mutual

/-- The extent of a piece. -/
def Piece.extent : Piece → Extent
  | .literal c => ⟨(Text.bytes [c]).length, 0⟩
  | .anyByte => ⟨1, 0⟩
  | .anyBytes => ⟨1, 1⟩
  | .leadingSegments => ⟨1, 4⟩
  | .trailingSegments => ⟨2, 1⟩
  | .innerSegments => ⟨1, 4⟩
  | .byteClass _ ranges => ⟨1, if (ranges.flatMap byteRanges).length ≤ 1 then 1 else 2⟩
  | .branches groups => .ofBranches (branchDepths groups)

/-- The extent of pieces, one after the other. -/
def extentOf : List Piece → Extent
  | [] => ⟨0, 0⟩
  | piece :: pieces => piece.extent.append (extentOf pieces)

/-- The depths of the branches that say something. -/
def branchDepths : List (List Piece) → List Nat
  | [] => []
  | branch :: more =>
    if isVoid branch then branchDepths more
    else (extentOf branch).depth :: branchDepths more

end

/-- How many levels deep an expression may go. -/
def deepest : Nat := 250

/-- Whether the expression of the pattern is nested too deep; as a whole it is a sequence. -/
def isTooDeep (glob : Glob) : Bool :=
  decide (deepest < (extentOf glob.pieces).levels + 1)

/-- Patterns that cannot be used together. -/
inductive NestingFault where
  /-- The pattern with this expression is nested too deep. -/
  | expression (text : Text)
  /-- Of the patterns for which all of a path counts, that of this index is nested too deep. -/
  | index (n : Nat)
  deriving DecidableEq, Repr

/-- The wording of a nesting fault. -/
def NestingFault.message : NestingFault → Text
  | .expression text =>
    "error parsing glob '".toList ++ text ++ "': error parsing pattern 0".toList
  | .index n => "error parsing pattern ".toList ++ Text.ofNat n

/-- What keeps patterns from being used together. Those that ask for an extension are looked at
first. -/
def nestingFault? (globs : List Glob) : Option NestingFault :=
  match globs.find? fun glob => glob.basis = .extension && glob.isTooDeep with
  | some glob => some (.expression glob.expression)
  | none =>
    ((globs.filter fun glob => glob.basis = .whole).findIdx? isTooDeep).map .index

end Guidebook.Glob
