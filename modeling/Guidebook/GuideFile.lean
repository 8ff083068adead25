import Guidebook.Path.Basic
import Guidebook.Text.Alphanumeric

/-!
# Guide Files

A guide is a `.kt` file somewhere below the root of the guides. Where it lies there, and what it
is called, decides the names of everything that is generated from it.

The directory of a guide decides the package that its programs are declared in: the names of the
directories, joined by dots, below the package `examples`. A name that is not made of letters alone
is written between backticks.
-/

namespace Guidebook

/-! ### Namespaces -/

/-- The names of the directories that lead to a guide. -/
structure Namespace where
  names : List Text
  deriving DecidableEq, Repr

namespace Namespace

/-- The package that holds every example. -/
def root : Text := "examples".toList

/-- Whether a name stands between backticks. -/
def isQuoted (name : Text) : Bool :=
  decide (2 ≤ name.length) && name.head? = some '`' && name.getLast? = some '`'

/-- A name as it is written in a package: between backticks, unless it is made of letters alone
or stands between backticks already. -/
def quote (name : Text) : Text :=
  if isQuoted name || name.all Text.isLetter then name else '`' :: name ++ ['`']

/-- The namespace of a directory: its names, without `.`, `..` and the root. -/
def ofDirectory (directory : Path) : Namespace :=
  ⟨directory.names⟩

/-- The quoted names, joined by dots. -/
def label (ns : Namespace) : Text :=
  Text.join ['.'] (ns.names.map quote)

/-- The package of the examples in this namespace. -/
def package (ns : Namespace) : Text :=
  if ns.label = [] then root else root ++ '.' :: ns.label

end Namespace

/-! ### Files -/

/-- What a candidate file is, by its extension. -/
inductive Format where
  /-- An annotated Kotlin guide, `.kt`. -/
  | kotlin
  /-- A guide in the retired markdown format, `.md`. -/
  | legacyMarkdown
  deriving DecidableEq, Repr

/-- The format that the extension of a path tells, if it is that of a guide at all. -/
def Format.ofPath? (path : Path) : Option Format :=
  match path.extension? with
  | some extension =>
    if extension = "kt".toList then some .kotlin
    else if extension = "md".toList then some .legacyMarkdown
    else none
  | none => none

/-- A file below the root of the guides. -/
structure GuideFile where
  /-- The path by which the file was found. -/
  path : Path
  /-- The path from the root of the guides. -/
  relativePath : Path
  /-- The directory of `relativePath`; empty for a file directly below the root. -/
  relativeDirectory : Path
  /-- The file name without its extension. -/
  name : Text
  /-- The extension, which the generated programs share. -/
  extension : Text
  deriving DecidableEq, Repr

namespace GuideFile

/-- The directory of a path; empty if the path has none. -/
def directoryOf (path : Path) : Path :=
  path.parent?.getD ⟨[]⟩

/-- The file at `path`, seen from `root`; none if it does not lie below `root`. -/
def ofPath? (root path : Path) : Option GuideFile :=
  (path.relativeTo? root).map fun relative =>
    { path
      relativePath := relative
      relativeDirectory := directoryOf relative
      name := path.stem?.getD []
      extension := path.extension?.getD [] }

/-- The namespace of the programs of the guide. -/
def toNamespace (file : GuideFile) : Namespace :=
  .ofDirectory file.relativeDirectory

end GuideFile

/-- The number of a program in file names and links: at least three digits. -/
def paddedIndex (index : Nat) : Text :=
  (Text.ofNat index).leftpad 3 '0'

end Guidebook
