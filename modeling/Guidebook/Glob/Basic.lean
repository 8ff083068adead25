import Guidebook.Path.Basic
import Guidebook.Text.Basic

/-!
# Glob Patterns

What a glob pattern consists of. A pattern is matched against the bytes of a whole path: `?` stands
for any byte, `*` for any bytes, and neither stops at a `/`. Where `**` fills a whole segment of a
pattern it stands for any number of segments, none included.
-/

namespace Guidebook

namespace Glob

/-- A piece of a pattern. -/
inductive Piece where
  | literal (c : Char)
  /-- `?` -/
  | anyByte
  /-- `*` -/
  | anyBytes
  /-- `**/` at the beginning: any number of segments. -/
  | leadingSegments
  /-- `/**` at the end: at least one more segment. -/
  | trailingSegments
  /-- `/**/`: any number of segments in between. -/
  | innerSegments
  /-- A class of bytes, given by the characters at the ends of its ranges. -/
  | byteClass (negated : Bool) (ranges : List (Char × Char))
  /-- The branches of a group in braces. -/
  | branches (branches : List (List Piece))

/-- The ranges of bytes that a range of characters adds to a class: the bytes of both ends
are written into the class one by one, and the hyphen stands between the last byte of the first
and the first byte of the second. -/
def byteRanges (range : Char × Char) : List (Byte × Byte) :=
  let low := Text.bytes [range.1]
  let high := Text.bytes [range.2]
  if range.1 = range.2 then low.map fun b => (b, b)
  else
    low.dropLast.map (fun b => (b, b)) ++ [(low.getLast?.getD 0, high.head?.getD 0)]
      ++ high.tail.map fun b => (b, b)

/-- Whether a class holds a byte. -/
def classHolds (negated : Bool) (ranges : List (Char × Char)) (b : Byte) : Bool :=
  (ranges.flatMap byteRanges).any (fun r => decide (r.1 ≤ b) && decide (b ≤ r.2)) != negated

mutual

/-- Whether a piece is a group of which no branch says anything. -/
def Piece.isVoid : Piece → Bool
  | .branches groups => areVoid groups
  | _ => false

/-- Whether all pieces say nothing. -/
def isVoid : List Piece → Bool
  | [] => true
  | piece :: pieces => piece.isVoid && isVoid pieces

/-- Whether all branches say nothing. -/
def areVoid : List (List Piece) → Bool
  | [] => true
  | branch :: more => isVoid branch && areVoid more

end

end Glob

/-- A glob pattern. -/
structure Glob where
  pieces : List Glob.Piece

end Guidebook
