import Guidebook.Glob.Basis

/-!
# Matching Paths

A path has places: in front of its first byte, behind its last, and between any two. Matching marks
the places that the pieces of a pattern, one after the other, can have reached; the pattern matches
if they can reach the last. Each piece takes one pass over the path, whatever has been marked.
-/

namespace Guidebook.Glob

/-- For each place of a path, whether it is marked. -/
abbrev Marks := List Bool

/-- The places behind the bytes that satisfy `p` and have a marked place in front of them. -/
def overByte (s : List Byte) (p : Byte → Bool) (marks : Marks) : Marks :=
  false :: List.zipWith (fun b mark => mark && p b) s marks

/-- The marked places and all places behind them; all places at all if `seen`. -/
def andBehind (seen : Bool) : Marks → Marks
  | [] => []
  | mark :: marks => (seen || mark) :: andBehind (seen || mark) marks

/-- The places that are marked on either side. -/
def orMarks (a b : Marks) : Marks :=
  List.zipWith or a b

/-- Whether a byte is a `/`. -/
def isSlash (b : Byte) : Bool :=
  b = '/'.toNat

/-- The marked places, and the places behind a slash that comes anywhere after one. -/
def overSegments (s : List Byte) (marks : Marks) : Marks :=
  orMarks marks (overByte s isSlash (andBehind false marks))

mutual

/-- The places that a piece can reach from the marked ones. -/
def Piece.reach (s : List Byte) : Piece → Marks → Marks
  | .literal c, marks => (Text.bytes [c]).foldl (fun marks b => overByte s (· = b) marks) marks
  | .anyByte, marks => overByte s (fun _ => true) marks
  | .anyBytes, marks => andBehind false marks
  | .leadingSegments, marks => overSegments s marks
  | .trailingSegments, marks => andBehind false (overByte s isSlash marks)
  | .innerSegments, marks => overSegments s (overByte s isSlash marks)
  | .byteClass negated ranges, marks => overByte s (classHolds negated ranges) marks
  | .branches groups, marks =>
    if areVoid groups then marks else reachAny s groups marks

/-- The places that the pieces, one after the other, can reach from the marked ones. -/
def reach (s : List Byte) : List Piece → Marks → Marks
  | [], marks => marks
  | piece :: pieces, marks => reach s pieces (piece.reach s marks)

/-- The places that the branches that say something can reach from the marked ones. -/
def reachAny (s : List Byte) : List (List Piece) → Marks → Marks
  | [], marks => marks.map fun _ => false
  | branch :: more, marks =>
    if isVoid branch then reachAny s more marks
    else orMarks (reach s branch marks) (reachAny s more marks)

end

/-- Whether the pieces match all of a path. -/
def matchesAll (pieces : List Piece) (s : List Byte) : Bool :=
  (reach s pieces (true :: s.map fun _ => false)).getLast? = some true

/-- Whether a path ends with `..`. -/
def endsWithUp (path : Path) : Bool :=
  (Text.splitOn '/' path.text).getLast? = some ['.', '.']

/-- Whether the pattern matches a path. A pattern that is only `**` matches every path; one that
asks for a file name matches no path that ends with `..`. -/
def isMatch (glob : Glob) (path : Path) : Bool :=
  match glob.pieces with
  | [.leadingSegments] => true
  | pieces =>
    let asksForName := glob.basis = .fileName || glob.basis = .extension
    !(asksForName && endsWithUp path) && matchesAll pieces (Text.bytes path.text)

end Guidebook.Glob
