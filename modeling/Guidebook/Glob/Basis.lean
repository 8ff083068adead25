import Guidebook.Glob.Basic

/-!
# What Decides a Match

A pattern may spell out so much of a path that less than the whole path decides whether it matches:
the file name alone, or the text at one end. Where the file name is asked for, a path that ends
with `..` does not match, since it has none.
-/

namespace Guidebook.Glob

/-- What of a path decides whether a pattern matches it. -/
inductive Basis where
  /-- Its file name, which is spelled out, or its extension. -/
  | fileName
  /-- Its text, or how that begins or ends, which is spelled out. -/
  | text
  /-- All of it, but its file name has to have a certain extension. -/
  | extension
  /-- All of it. -/
  | whole
  deriving DecidableEq, Repr

/-- The character that a piece is. -/
def Piece.literal? : Piece → Option Char
  | .literal c => some c
  | _ => none

/-- The text that literal pieces spell out. -/
def spelled? (pieces : List Piece) : Option Text :=
  pieces.mapM Piece.literal?

/-- The pieces behind `**/` at the beginning, if there is one. -/
def dropLeading : List Piece → List Piece
  | .leadingSegments :: pieces => pieces
  | pieces => pieces

/-- Whether a pattern is `**/` and a file name. -/
def spellsName : List Piece → Bool
  | .leadingSegments :: name => (spelled? name).any fun t => !t.isEmpty && !t.contains '/'
  | _ => false

/-- Whether a pattern is `*`, perhaps behind `**/`, and an extension. -/
def spellsExtension (pieces : List Piece) : Bool :=
  match dropLeading pieces with
  | .anyBytes :: .literal c :: rest =>
    c = '.' && (spelled? rest).any fun t => !t.contains '.' && !t.contains '/'
  | _ => false

/-- Whether a pattern spells out all of a path, or all but what `*` or `/**` at its end stands
for. -/
def spellsBeginning (pieces : List Piece) : Bool :=
  match pieces.getLast? with
  | some .anyBytes => (spelled? pieces.dropLast).any fun t => !t.isEmpty
  | some .trailingSegments => (spelled? pieces.dropLast).isSome
  | some _ => (spelled? pieces).isSome
  | none => false

/-- Whether a pattern spells out all of a path but what `**/` or `*` at its beginning stands for. -/
def spellsEnd : List Piece → Bool
  | .leadingSegments :: .literal _ :: rest => (spelled? rest).isSome
  | pieces =>
    match dropLeading pieces with
    | .anyBytes :: rest => (spelled? rest).any fun t => !t.isEmpty && t != ['/']
    | _ => false

/-- Whether a pattern ends with a `.` and literal characters, with no `/` among them. -/
def endsWithExtension (pieces : List Piece) : Bool :=
  match (pieces.reverse.map Piece.literal?).dropWhile
      fun c => c.any fun c => c ≠ '.' && c ≠ '/' with
  | some c :: _ => c = '.'
  | _ => false

/-- What decides whether a pattern matches; the least that suffices. -/
def basisOf (pieces : List Piece) : Basis :=
  if spellsName pieces then .fileName
  else if (spelled? pieces).any fun t => !t.isEmpty then .text
  else if spellsExtension pieces then .fileName
  else if spellsBeginning pieces || spellsEnd pieces then .text
  else if endsWithExtension pieces then .extension
  else .whole

/-- What decides whether the pattern matches. -/
def basis (glob : Glob) : Basis :=
  basisOf glob.pieces

end Guidebook.Glob
