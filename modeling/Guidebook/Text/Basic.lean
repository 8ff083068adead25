/-!
# Texts

A text is a list of characters. This module holds the few operations on texts that the rest of
the library is written in: cutting a text at a separator character, joining pieces, finding the
first place where a given piece stands, and writing a text in bytes. A property of characters is
written as an ascending list of intervals of code points; the tables of the properties themselves
stand in modules of their own.

## Main results

* `Text.splitOn_ne_nil`: a text always has at least one piece.
* `Text.join_splitOn`: joining the pieces with the separator gives the text back.
-/

namespace Guidebook

/-- A text: its characters, in order. -/
abbrev Text := List Char

namespace Text

/-! ### Pieces -/

/-- The pieces of a text between the occurrences of `sep`. A text without `sep` is its own
only piece, so there is always at least one. -/
def splitOn (sep : Char) : Text → List Text
  | [] => [[]]
  | c :: rest =>
    if c = sep then [] :: splitOn sep rest
    else
      match splitOn sep rest with
      | [] => [[c]]
      | piece :: pieces => (c :: piece) :: pieces

/-- The pieces one after the other, with `sep` between neighbours. -/
def join (sep : Text) : List Text → Text
  | [] => []
  | [piece] => piece
  | piece :: next :: pieces => piece ++ sep ++ join sep (next :: pieces)

/-- A text has at least one piece. -/
theorem splitOn_ne_nil (sep : Char) (t : Text) : splitOn sep t ≠ [] := by
  cases t with
  | nil => simp [splitOn]
  | cons c rest =>
    simp only [splitOn]
    split
    · simp
    · split <;> simp

/-- Adding a character in front of the first piece adds it in front of the joined text. -/
theorem join_cons_cons (sep : Text) (c : Char) (piece : Text) (pieces : List Text) :
    join sep ((c :: piece) :: pieces) = c :: join sep (piece :: pieces) := by
  cases pieces <;> simp [join]

/-- **Cutting and joining**: the pieces of a text, joined with the separator, are the text. -/
theorem join_splitOn (sep : Char) (t : Text) : join [sep] (splitOn sep t) = t := by
  induction t with
  | nil => rfl
  | cons c rest ih =>
    simp only [splitOn]
    split
    · next h =>
      cases hp : splitOn sep rest with
      | nil => exact absurd hp (splitOn_ne_nil sep rest)
      | cons piece pieces => rw [← ih, hp, h]; simp [join]
    · cases hp : splitOn sep rest with
      | nil => exact absurd hp (splitOn_ne_nil sep rest)
      | cons piece pieces => rw [← ih, hp]; exact join_cons_cons [sep] c piece pieces

/-! ### Searching -/

/-- The text before and the text after the first occurrence of `piece`, if there is one. -/
def cut (piece : Text) : Text → Option (Text × Text)
  | [] => (piece.isPrefixOf? []).map fun rest => ([], rest)
  | c :: rest =>
    match piece.isPrefixOf? (c :: rest) with
    | some after => some ([], after)
    | none => (cut piece rest).map fun (before, after) => (c :: before, after)

/-- Whether `piece` stands somewhere in the text. -/
def has (piece t : Text) : Bool :=
  (cut piece t).isSome

/-- The text without the characters at its end that satisfy `p`. -/
def dropEndWhile (p : Char → Bool) (t : Text) : Text :=
  (t.reverse.dropWhile p).reverse

/-- The text with every occurrence of the two characters `a`, `b` in a row replaced by `new`,
reading from left to right. -/
def replacePair (a b new : Char) : Text → Text
  | [] => []
  | [c] => [c]
  | c :: d :: rest =>
    if c = a ∧ d = b then new :: replacePair a b new rest
    else c :: replacePair a b new (d :: rest)

/-- The decimal digits of a number. -/
def ofNat (n : Nat) : Text :=
  Nat.toDigits 10 n

/-! ### Sets of characters -/

/-- Whether `n` lies in one of the intervals, which stand in ascending order: the search ends at
the first interval that starts beyond `n`. -/
def inIntervals (n : Nat) : List (Nat × Nat) → Bool
  | [] => false
  | (low, high) :: rest =>
    if n < low then false else decide (n ≤ high) || inIntervals n rest

end Text

/-! ### Bytes -/

/-- A byte, as a number. -/
abbrev Byte := Nat

/-- The bytes of a text in UTF-8. -/
def Text.bytes (t : Text) : List Byte :=
  t.flatMap fun c => (String.utf8EncodeChar c).map UInt8.toNat

end Guidebook
