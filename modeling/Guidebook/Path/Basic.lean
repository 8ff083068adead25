import Guidebook.Text.Basic

/-!
# Paths

A path is a text in which `/` separates segments. The text is kept as it was written, because it
is shown as it was written; what it means is read off it.

Of the segments, an empty one and `.` are *silent*: they name nothing. The one exception is a `.`
at the very beginning of a path that does not start with `/`, which says that the path starts
where we are. A leading `/` says that it starts at the root. What remains are the `..` segments
and the names. `Path.components` lists all this in order.

Paths are ordered by their components, from left to right. Among components the root comes first,
then `.`, then `..`, then the names in the order of their characters.

## Main results

* `Path.build_split`: a path can be taken apart into its anchor and its segments without loss.
-/

namespace Guidebook

/-- A path, as written. -/
structure Path where
  text : Text
  deriving DecidableEq, Repr, Inhabited

/-- What a path says, piece by piece. -/
inductive Component where
  /-- The path starts at the root. -/
  | root
  /-- The path starts, in so many words, where we are. -/
  | here
  /-- One directory up. -/
  | up
  /-- Into the entry of this name. -/
  | name (name : Text)
  deriving DecidableEq, Repr

namespace Path

/-- The beginning of a path. -/
inductive Anchor where
  /-- The path begins with `/`. -/
  | root
  /-- The path is `.` or begins with `./`. -/
  | here
  /-- The path begins with neither. -/
  | plain
  deriving DecidableEq, Repr

/-- The anchor of a path and the segments after it. -/
def split (p : Path) : Anchor × List Text :=
  match p.text with
  | '/' :: rest => (.root, Text.splitOn '/' rest)
  | ['.'] => (.here, [])
  | '.' :: '/' :: rest => (.here, Text.splitOn '/' rest)
  | t => (.plain, Text.splitOn '/' t)

/-- The path with the given anchor and segments. -/
def build : Anchor → List Text → Path
  | .root, segments => ⟨'/' :: Text.join ['/'] segments⟩
  | .here, [] => ⟨['.']⟩
  | .here, segments => ⟨'.' :: '/' :: Text.join ['/'] segments⟩
  | .plain, segments => ⟨Text.join ['/'] segments⟩

/-- A path that starts where we are, in so many words, and has segments begins with `./`. -/
theorem build_here {segments : List Text} (h : segments ≠ []) :
    build .here segments = ⟨'.' :: '/' :: Text.join ['/'] segments⟩ := by
  cases segments with
  | nil => exact absurd rfl h
  | cons s segments => rfl

/-- **Nothing is lost** by taking a path apart. -/
theorem build_split (p : Path) : build p.split.1 p.split.2 = p := by
  obtain ⟨t⟩ := p
  simp only [split]
  split
  · simp [build, Text.join_splitOn]
  · rfl
  · rw [build_here (Text.splitOn_ne_nil _ _), Text.join_splitOn]
  · simp [build, Text.join_splitOn]

/-- A segment that names nothing. -/
def isSilent (segment : Text) : Bool :=
  segment = [] || segment = ['.']

/-- The component that a segment after the anchor stands for; a silent one stands for none. -/
def component? (segment : Text) : Option Component :=
  if isSilent segment then none
  else if segment = ['.', '.'] then some .up
  else some (.name segment)

/-- The component that an anchor stands for. -/
def Anchor.components : Anchor → List Component
  | .root => [.root]
  | .here => [.here]
  | .plain => []

/-- What the path says, piece by piece. Repeated and trailing `/` and inner `.` leave no trace;
`..` is kept and never resolved. -/
def components (p : Path) : List Component :=
  p.split.1.components ++ p.split.2.filterMap component?

/-- The names among the components. -/
def names (p : Path) : List Text :=
  p.components.filterMap fun
    | .name n => some n
    | _ => none

/-- Whether the path starts at the root. -/
def isAbsolute (p : Path) : Bool :=
  p.split.1 = .root

/-- The path with one `/` between its components, however it was written. A leading `.` is left
out, and the root alone is the empty text. -/
def slashed (p : Path) : Text :=
  Text.join ['/'] <| p.components.filterMap fun
    | .root => some []
    | .here => none
    | .up => some ['.', '.']
    | .name n => some n

/-! ### Putting paths together -/

/-- `q` read from within `p`: an absolute `q` replaces `p`, any other is written behind it. -/
def join (p q : Path) : Path :=
  if q.isAbsolute then q
  else if p.text = [] ∨ p.text.getLast? = some '/' then ⟨p.text ++ q.text⟩
  else ⟨p.text ++ '/' :: q.text⟩

/-! ### Taking paths apart -/

/-- The segments without the silent ones at the end. -/
def dropSilentEnd (segments : List Text) : List Text :=
  (segments.reverse.dropWhile isSilent).reverse

/-- The path without its last component, unless there is none or it is the root. The text that
is left ends with a component. -/
def parent? (p : Path) : Option Path :=
  match p.split with
  | (anchor, segments) =>
    match dropSilentEnd segments, anchor with
    | [], .here => some ⟨[]⟩
    | [], _ => none
    | spoken, anchor => some (build anchor (dropSilentEnd spoken.dropLast))

/-- The path, its parent, the parent of that, and so on, as long as they are not empty. A path has
no more of them than characters. -/
def ancestors (p : Path) : List Path :=
  upFrom p.text.length p
where
  /-- The first `n` of them. -/
  upFrom : Nat → Path → List Path
  | 0, _ => []
  | n + 1, p =>
    if p.text = [] then []
    else p :: (p.parent?.map (upFrom n)).getD []

/-- The name that the path ends with, if its last component is a name. -/
def fileName? (p : Path) : Option Text :=
  match p.components.getLast? with
  | some (.name n) => some n
  | _ => none

/-- The segments after the first `n` that are not silent. -/
def dropSpoken : Nat → List Text → List Text
  | 0, segments => segments
  | _ + 1, [] => []
  | n + 1, segment :: segments =>
    if isSilent segment then dropSpoken (n + 1) segments else dropSpoken n segments

/-- The rest of `p` after the components of `root`, if `p` begins with them. The rest is written
as in `p`, without silent segments at its ends. -/
def relativeTo? (p root : Path) : Option Path :=
  if root.components.isPrefixOf p.components then
    match p.split, root.components.length with
    | (anchor, segments), 0 => some (build anchor (dropSilentEnd segments))
    | (.plain, segments), n + 1 =>
      some (build .plain (dropSilentEnd ((dropSpoken (n + 1) segments).dropWhile isSilent)))
    | (_, segments), n + 1 =>
      some (build .plain (dropSilentEnd ((dropSpoken n segments).dropWhile isSilent)))
  else none

/-! ### File names -/

/-- What stands before and after the last `.` of a name, if there is one. -/
def splitLastDot? (name : Text) : Option (Text × Text) :=
  match name.reverse.dropWhile (· ≠ '.') with
  | [] => none
  | _ :: before => some (before.reverse, (name.reverse.takeWhile (· ≠ '.')).reverse)

/-- A file name without its extension. A name whose only `.` comes first has no extension. -/
def stemOf (name : Text) : Text :=
  match splitLastDot? name with
  | some (c :: before, _) => c :: before
  | _ => name

/-- What stands after the last `.` of a file name, unless that `.` comes first. -/
def extensionOf? (name : Text) : Option Text :=
  match splitLastDot? name with
  | some (_ :: _, after) => some after
  | _ => none

/-- The file name of the path without its extension. -/
def stem? (p : Path) : Option Text :=
  p.fileName?.map stemOf

/-- The extension of the file name of the path. -/
def extension? (p : Path) : Option Text :=
  p.fileName?.bind extensionOf?

end Path

/-! ### The order of paths -/

/-- The strict order of components. -/
def Component.before : Component → Component → Bool
  | .root, .root => false
  | .root, _ => true
  | .here, .root => false
  | .here, .here => false
  | .here, _ => true
  | .up, .name _ => true
  | .up, _ => false
  | .name a, .name b => decide (a < b)
  | .name _, _ => false

namespace Path

/-- The strict order of paths. -/
def before (p q : Path) : Bool :=
  List.lex p.components q.components Component.before

/-- The paths, which are in order, with `p` put before the first that does not come before it. -/
def insertInOrder (p : Path) : List Path → List Path
  | [] => [p]
  | q :: rest => if q.before p then q :: insertInOrder p rest else p :: q :: rest

/-- The paths in ascending order; paths with the same components keep theirs. -/
def sort (paths : List Path) : List Path :=
  paths.foldr insertInOrder []

end Path

end Guidebook
