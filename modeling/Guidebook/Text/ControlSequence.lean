import Guidebook.Text.Basic

/-!
# Control Sequences

A terminal takes some characters of a text as orders to itself: a control character on its own, or
a sequence that an escape character begins. `Text.visible` is the text without them, for a place
where they must not take effect.

What ends a sequence depends on its kind, which the characters behind the escape tell. White space
among the control characters is part of the text. It is so even within a short sequence: the text
is visible again from there on, up to the next control character, with which the sequence goes on.
-/

namespace Guidebook

/-- What sequence a terminal is in the middle of. -/
inductive ControlState where
  /-- None. -/
  | ground
  /-- An escape character has been read. -/
  | escape
  /-- An escape character and a sign that asks for more. -/
  | escapeSign
  /-- A sequence of parameters that began with `[` behind the escape. -/
  | parameters
  /-- The head of a device string, which began with `P` behind the escape. -/
  | deviceStart
  /-- The same, with parameters. -/
  | deviceParameters
  /-- The same, with a sign that asks for more. -/
  | deviceSign
  /-- A string that ends with a string terminator only. -/
  | string
  /-- A string for the operating system, which began with `]` behind the escape. -/
  | systemString
  deriving DecidableEq, Repr

namespace ControlState

/-- The state that a byte behind the escape leads to. -/
def afterEscape (b : Byte) : ControlState :=
  if b = 0x5B then .parameters
  else if b = 0x5D then .systemString
  else if b = 0x50 then .deviceStart
  else if b = 0x58 ∨ b = 0x5E ∨ b = 0x5F then .string
  else if 0x20 ≤ b ∧ b ≤ 0x2F then .escapeSign
  else if 0x30 ≤ b ∧ b ≤ 0x7E then .ground
  else .escape

/-- The state that a byte in the head of a device string leads to. -/
def inDeviceHead (state : ControlState) (b : Byte) : ControlState :=
  if 0x20 ≤ b ∧ b ≤ 0x2F then .deviceSign
  else if 0x30 ≤ b ∧ b ≤ 0x3B then if state = .deviceSign then .string else .deviceParameters
  else if 0x3C ≤ b ∧ b ≤ 0x3F then if state = .deviceStart then .deviceParameters else .string
  else if 0x40 ≤ b ∧ b ≤ 0x7E then .string
  else state

/-- The state after one more byte. An escape begins a new sequence wherever it stands, and the
bytes 0x18 and 0x1A break any sequence off. -/
def step (state : ControlState) (b : Byte) : ControlState :=
  if b = 0x18 ∨ b = 0x1A then .ground
  else if b = 0x1B then .escape
  else
    match state with
    | .ground => .ground
    | .escape => afterEscape b
    | .escapeSign => if 0x30 ≤ b ∧ b ≤ 0x7E then .ground else .escapeSign
    | .parameters => if 0x40 ≤ b ∧ b ≤ 0x7E then .ground else .parameters
    | .string => if b = 0x9C then .ground else .string
    | .systemString => if b = 0x07 then .ground else .systemString
    | head => inDeviceHead head b

/-- Whether white space is visible in the middle of a sequence. -/
def showsSpace : ControlState → Bool
  | .ground => true
  | .escape => true
  | .escapeSign => true
  | .parameters => true
  | _ => false

end ControlState

namespace Text

/-- Whether a character is an ASCII control character. -/
def isControl (c : Char) : Bool :=
  decide (c.toNat < 0x20) || c.toNat == 0x7F

/-- Whether a control character is white space. -/
def isControlSpace (c : Char) : Bool :=
  c = '\t' || c = '\n' || c = '\x0c' || c = '\r'

/-- The visible characters of a text. A sequence in the middle of which the text begins is put off
if `isOff`. -/
def visibleFrom (isOff : Bool) (state : ControlState) : Text → Text
  | [] => []
  | c :: rest =>
    if state = .ground || isOff then
      if 0x7F < c.toNat then c :: visibleFrom true .ground rest
      else if !isControl c || isControlSpace c then c :: visibleFrom true state rest
      else visibleFrom false (state.step c.toNat) rest
    else if isControlSpace c && state.showsSpace then c :: visibleFrom true state rest
    else visibleFrom false ((bytes [c]).foldl ControlState.step state) rest

/-- The text without control sequences and control characters, but for white space. -/
def visible (t : Text) : Text :=
  visibleFrom false .ground t

end Text

end Guidebook
