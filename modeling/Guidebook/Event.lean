import Guidebook.Guide.Fault
import Guidebook.Path.Basic

/-!
# Events

What a run reports while it goes on.
-/

namespace Guidebook

/-- The kinds of files that are written. -/
inductive OutputKind where
  | page
  | runnable
  | exported
  deriving DecidableEq, Repr

/-- Something that happens in a run. -/
inductive Event where
  /-- A scan leaves out an excluded file or directory. -/
  | excluded (path : Path)
  /-- There is no configuration file in the directory. -/
  | configMissing (root : Path)
  | configLoaded (path : Path)
  /-- A candidate that is no guide. -/
  | ignored (path : Path)
  /-- A guide that is rejected. -/
  | rejected (file : Text) (rejection : Rejection)
  /-- An output directory is there, made or found. -/
  | ensured (directory : Path)
  /-- A file is about to be written. -/
  | writing (kind : OutputKind) (path : Path)
  /-- A run has come to its end, with these many files written and sources skipped. -/
  | complete (pages runnable exported skipped : Nat)
  deriving DecidableEq, Repr

namespace Event

/-- How important an event is. -/
inductive Level where
  | debug
  | info
  | error
  deriving DecidableEq, Repr

/-- The level of an event. -/
def level : Event → Level
  | .rejected _ _ => .error
  | .writing _ _ => .info
  | .complete _ _ _ _ => .info
  | _ => .debug

/-- The fields of an event, its message first. -/
def fields : Event → List (Text × Text)
  | .excluded path =>
    [("message".toList, "excluded from scan".toList), ("path".toList, path.text)]
  | .configMissing root =>
    [("message".toList, "no config file found, using defaults".toList), ("root".toList, root.text)]
  | .configLoaded path => [("message".toList, "loaded config".toList), ("path".toList, path.text)]
  | .ignored path =>
    [("message".toList, "not a guide source, ignoring".toList), ("path".toList, path.text)]
  | .rejected file rejection =>
    [("message".toList,
        "Error in ".toList ++ file ++ ": ".toList ++ rejection.display),
      ("file".toList, file), ("message".toList, rejection.message),
      ("line".toList, Text.ofNat rejection.line)]
  | .ensured directory =>
    [("message".toList, "ensured output directory".toList), ("path".toList, directory.text)]
  | .writing kind path =>
    let what :=
      match kind with
      | .page => "writing documentation page to ".toList
      | .runnable => "writing runnable example to ".toList
      | .exported => "writing exported example to ".toList
    [("message".toList, what ++ path.text)]
  | .complete pages runnable exported skipped =>
    [("message".toList, "generation complete".toList), ("pages".toList, Text.ofNat pages),
      ("runnable".toList, Text.ofNat runnable), ("exported".toList, Text.ofNat exported),
      ("skipped".toList, Text.ofNat skipped)]

end Event

end Guidebook
