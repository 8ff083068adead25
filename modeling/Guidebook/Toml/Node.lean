import Guidebook.Text.Basic

/-!
# The Tree of a TOML Document

A document is a table of values, built up statement by statement. How a table came about decides
what may still be added to it: one that a header has defined cannot be defined again, one that a
dotted key has opened can be extended by dotted keys only, and one written in braces is complete.

Of the values only texts, dates and containers are told apart further; all others are *plain*. What
a number is written like is checked when it is read, but whether it has a value in range only counts
where the value is looked at: `Node.isInRange`.
-/

namespace Guidebook.Toml

/-- How a table came about. -/
inductive Origin where
  /-- The document itself, or a table that a header has defined. -/
  | defined
  /-- A table on the way to one that a header has defined. -/
  | implied
  /-- A table on the way to the value of a dotted key, or that holds the value of one. -/
  | dotted
  /-- A table in braces. -/
  | inline
  deriving DecidableEq, Repr

/-- A value. -/
inductive Node where
  | text (t : Text)
  | date
  /-- A number or a truth value; whether it has a value in range. -/
  | plain (isInRange : Bool)
  | array (items : List Node)
  /-- The tables that headers in double brackets have defined, the last of them apart: it is the
  one that can still be added to. -/
  | tables (earlier : List Node) (last : Node)
  | table (origin : Origin) (fields : List (Text × Node))

/-- The value of a field. -/
def field? (key : Text) : List (Text × Node) → Option Node
  | [] => none
  | (name, node) :: rest => if name = key then some node else field? key rest

/-- The fields with the value of the field `key` replaced. -/
def setField (key : Text) (node : Node) (fields : List (Text × Node)) : List (Text × Node) :=
  fields.map fun (name, old) => (name, if name = key then node else old)

namespace Node

/-- The document without statements. -/
def empty : Node := .table .defined []

/-- The table in the braces `{}`. -/
def emptyInline : Node := .table .inline []

/-- The node with the last table of an array of tables changed, or the node itself changed. -/
def onLast (change : Node → Option Node) : Node → Option Node
  | .tables earlier last => (change last).map (.tables earlier)
  | node => change node

/-- The table after a header: a new table at the end of the path, which `inArray` adds to an array
of tables. None if the path does not lead through tables, or ends at what is already defined. -/
def define (inArray : Bool) : List Text → Node → Option Node
  | [], _ => none
  | [key], .table origin fields =>
    if inArray then
      match field? key fields with
      | none => some (.table origin (fields ++ [(key, .tables [] empty)]))
      | some (.tables earlier last) =>
        some (.table origin (setField key (.tables (earlier ++ [last]) empty) fields))
      | some _ => none
    else
      match field? key fields with
      | none => some (.table origin (fields ++ [(key, empty)]))
      | some (.table .implied inner) =>
        some (.table origin (setField key (.table .defined inner) fields))
      | some _ => none
  | key :: path, .table origin fields =>
    match field? key fields with
    | none =>
      (define inArray path (.table .implied [])).map fun node =>
        .table origin (fields ++ [(key, node)])
    | some (.table .inline _) => none
    | some node =>
      (onLast (define inArray path) node).map fun node => .table origin (setField key node fields)
  | _, _ => none

/-- The table after a statement `key = value` whose key has the dotted parts `path` in front;
`isNested` tells whether this table is on the way. A table on the way to the key must not be one
that a header has defined, and the table that holds the key is opened by it. -/
def assign (isNested : Bool) : List Text → Text → Node → Node → Option Node
  | [], key, value, .table origin fields =>
    if (!isNested || origin = .dotted || origin = .implied) && (field? key fields).isNone then
      some (.table (if isNested then .dotted else origin) (fields ++ [(key, value)]))
    else none
  | part :: path, key, value, .table origin fields =>
    match field? part fields with
    | none =>
      (assign true path key value (.table .dotted [])).map fun node =>
        .table origin (fields ++ [(part, node)])
    | some (.table .inline _) => none
    | some (.table .defined _) => none
    | some node =>
      (onLast (assign true path key value) node).map fun node =>
        .table origin (setField part node fields)
  | _, _, _, _ => none

/-- The node with a change made at the table that a header has led to. -/
def atHeader (change : Node → Option Node) : List Text → Node → Option Node
  | [], node => change node
  | key :: path, .table origin fields =>
    match field? key fields with
    | none => none
    | some node =>
      (onLast (atHeader change path) node).map fun node => .table origin (setField key node fields)
  | _, _ => none

mutual

/-- Whether all numbers in a value have a value in range. -/
def isInRange : Node → Bool
  | .text _ => true
  | .date => true
  | .plain inRange => inRange
  | .array items => areInRange items
  | .tables earlier last => areInRange earlier && isInRange last
  | .table _ fields => fieldsInRange fields

/-- Whether all numbers in some values have a value in range. -/
def areInRange : List Node → Bool
  | [] => true
  | node :: nodes => isInRange node && areInRange nodes

/-- Whether all numbers in some fields have a value in range. -/
def fieldsInRange : List (Text × Node) → Bool
  | [] => true
  | (_, node) :: fields => isInRange node && fieldsInRange fields

end

end Node

end Guidebook.Toml
