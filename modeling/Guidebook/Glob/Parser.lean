import Guidebook.Glob.Basic

/-!
# Reading Glob Patterns

A pattern is read from left to right, and the first fault in it is the one that is reported. What
`**` means depends on its surroundings, so the reader knows the character it has read last and
looks one character ahead.
-/

namespace Guidebook.Glob

/-- Why a text is not a glob pattern. -/
inductive Fault where
  | classOpen
  /-- The ends of a range in a class are in descending order. -/
  | descendingRange (low high : Char)
  | bracesNotOpened
  | bracesOpen
  /-- A backslash at the end. -/
  | danglingEscape
  deriving DecidableEq, Repr

/-- The wording of a fault. -/
def Fault.message : Fault → Text
  | .classOpen => "unclosed character class; missing ']'".toList
  | .descendingRange low high =>
    "invalid range; '".toList ++ low :: "' > '".toList ++ high :: ['\'']
  | .bracesNotOpened =>
    "unopened alternate group; missing '\x7b' (maybe escape '\x7d' with '[\x7d]'?)".toList
  | .bracesOpen =>
    "unclosed alternate group; missing '\x7d' (maybe escape '\x7b' with '[\x7b]'?)".toList
  | .danglingEscape => "dangling '\\'".toList

/-- The pieces read so far: those of the innermost group that is open, and for each open group,
from the inside out, its finished branches and the pieces in front of it. -/
structure Draft where
  pieces : List Piece
  groups : List (List (List Piece) × List Piece)
  /-- The character read last. -/
  previous : Option Char

namespace Draft

/-- The draft of an empty pattern. -/
def empty : Draft := ⟨[], [], none⟩

/-- The draft with one more piece, which ends with the character `c`. -/
def push (d : Draft) (c : Char) (piece : Piece) : Draft :=
  { d with pieces := d.pieces ++ [piece], previous := some c }

/-- The draft inside a new group. -/
def openGroup (d : Draft) : Draft :=
  ⟨[], ([], d.pieces) :: d.groups, some '\x7b'⟩

/-- The draft behind the group that is open. -/
def closeGroup (d : Draft) : Except Fault Draft :=
  match d.groups with
  | [] => .error .bracesNotOpened
  | (finished, before) :: outer =>
    .ok ⟨before ++ [.branches (finished ++ [d.pieces])], outer, some '\x7d'⟩

/-- The draft behind a comma, which begins a new branch in a group and is a character outside. -/
def comma (d : Draft) : Draft :=
  match d.groups with
  | [] => d.push ',' (.literal ',')
  | (finished, before) :: outer => ⟨[], (finished ++ [d.pieces], before) :: outer, some ','⟩

/-- The draft behind two stars that are nothing special. -/
def twoStars (d : Draft) : Draft :=
  (d.push '*' .anyBytes).push '*' .anyBytes

/-- The draft in which `piece`, which ends with the character `c`, has taken the place of the last
piece, the slash in front of `**`. Directly behind another `**` it is that which stays. -/
def replaceLast (d : Draft) (c : Char) (piece : Piece) : Draft :=
  let kept :=
    match d.pieces.getLast? with
    | some .leadingSegments => .leadingSegments
    | some .trailingSegments => .trailingSegments
    | _ => piece
  { d with pieces := d.pieces.dropLast ++ [kept], previous := some c }

/-- The draft behind `**` when `next` comes next, and whether `next` is a slash that belongs to
it. Only where `**` fills a segment does it stand for segments. -/
def doubleStar (d : Draft) (next : Option Char) : Draft × Bool :=
  let begins := d.pieces.isEmpty
  let inGroup := !d.groups.isEmpty
  let afterSlash := d.previous = some '/'
  let afterBranch := inGroup && (d.previous = some ',' || d.previous = some '\x7b')
  let atEnd := next = none || inGroup && (next = some ',' || next = some '\x7d')
  if begins then
    match next with
    | none => (d.push '*' .leadingSegments, false)
    | some '/' => (d.push '/' .leadingSegments, true)
    | _ => (d.twoStars, false)
  else if !afterSlash && !afterBranch then (d.twoStars, false)
  else if atEnd then (d.replaceLast '*' .trailingSegments, false)
  else if next = some '/' then (d.replaceLast '/' .innerSegments, true)
  else (d.twoStars, false)

end Draft

/-- A class of bytes that is being read. -/
structure ClassDraft where
  negated : Bool
  ranges : List (Char × Char)
  /-- Whether nothing of the class has been read. -/
  isFirst : Bool
  /-- Whether a hyphen came last, behind a character. -/
  inRange : Bool

namespace ClassDraft

/-- The class with one more character. -/
def character (k : ClassDraft) (c : Char) : ClassDraft :=
  { k with ranges := k.ranges ++ [(c, c)], isFirst := false, inRange := false }

/-- The class whose last range ends with `c`. -/
def endRange (k : ClassDraft) (c : Char) : Except Fault ClassDraft :=
  match k.ranges.getLast? with
  | some (low, _) =>
    if c < low then .error (.descendingRange low c)
    else
      .ok { k with
        ranges := k.ranges.dropLast ++ [(low, c)]
        isFirst := false
        inRange := false }
  | none => .ok (k.character c)

/-- The class with one more character of its text, which does not close it. -/
def step (k : ClassDraft) (c : Char) : Except Fault ClassDraft :=
  if c = '-' && !k.isFirst && !k.inRange then .ok { k with inRange := true }
  else if k.inRange then k.endRange c
  else .ok (k.character c)

/-- The finished class. A hyphen at its end is a character. -/
def piece (k : ClassDraft) : Piece :=
  .byteClass k.negated (if k.inRange then k.ranges ++ [('-', '-')] else k.ranges)

end ClassDraft

/-- What the reader of a pattern is in the middle of. -/
inductive Reading where
  | pieces
  /-- The character behind a backslash comes next. -/
  | escape
  /-- A class has been opened, and may be negated next. -/
  | classOpened
  | byteClass (k : ClassDraft)
  /-- One star has been read. -/
  | star

/-- The pieces of the pattern whose rest is given. -/
def piecesFrom : Draft → Reading → Text → Except Fault (List Piece)
  | _, .escape, [] => .error .danglingEscape
  | _, .classOpened, [] => .error .classOpen
  | _, .byteClass _, [] => .error .classOpen
  | d, .star, [] =>
    if d.groups.isEmpty then .ok (d.push '*' .anyBytes).pieces else .error .bracesOpen
  | d, .pieces, [] => if d.groups.isEmpty then .ok d.pieces else .error .bracesOpen
  | d, .escape, c :: rest => piecesFrom (d.push c (.literal c)) .pieces rest
  | d, .classOpened, c :: rest =>
    if c = '!' ∨ c = '^' then piecesFrom d (.byteClass ⟨true, [], true, false⟩) rest
    else
      match (ClassDraft.mk false [] true false).step c with
      | .ok k => piecesFrom d (.byteClass k) rest
      | .error e => .error e
  | d, .byteClass k, c :: rest =>
    if c = ']' ∧ !k.isFirst then piecesFrom (d.push ']' k.piece) .pieces rest
    else
      match k.step c with
      | .ok k => piecesFrom d (.byteClass k) rest
      | .error e => .error e
  | d, .star, '*' :: rest =>
    match d.doubleStar rest.head?, rest with
    | (d, true), _ :: rest => piecesFrom d .pieces rest
    | (d, _), rest => piecesFrom d .pieces rest
  | d, .star, c :: rest => piecesOne (d.push '*' .anyBytes) c rest
  | d, .pieces, c :: rest => piecesOne d c rest
where
  /-- The pieces of the pattern whose rest begins with `c`. -/
  piecesOne (d : Draft) (c : Char) (rest : Text) : Except Fault (List Piece) :=
    match c with
    | '?' => piecesFrom (d.push '?' .anyByte) .pieces rest
    | '*' => piecesFrom d .star rest
    | '[' => piecesFrom d .classOpened rest
    | '\x7b' => piecesFrom d.openGroup .pieces rest
    | '\x7d' =>
      match d.closeGroup with
      | .ok d => piecesFrom d .pieces rest
      | .error e => .error e
    | ',' => piecesFrom d.comma .pieces rest
    | '\\' => piecesFrom d .escape rest
    | c => piecesFrom (d.push c (.literal c)) .pieces rest

/-- The glob pattern that a text holds. -/
def parse (pattern : Text) : Except Fault Glob :=
  (piecesFrom .empty .pieces pattern).map Glob.mk

end Guidebook.Glob
