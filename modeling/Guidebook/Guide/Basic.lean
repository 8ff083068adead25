import Guidebook.FrontMatter

/-!
# Guides

What a guide says, once its annotations have been understood: directives, imports, and a sequence
of blocks of prose, media and code. The marker in front of a code block decides where its code
goes: into the page, among the programs that are run, and among the programs that are published.
-/

namespace Guidebook

/-- The markers of code blocks. -/
inductive CodeKind where
  /-- `@Code`: shown, run and exported. -/
  | shown
  /-- `@Code.Block`: shown only. -/
  | block
  /-- `@Code.Export`: shown and exported. -/
  | exported
  /-- `@Application`: run only. -/
  | application
  deriving DecidableEq, Repr

namespace CodeKind

/-- The name of a marker, without its `@`. -/
def marker : CodeKind → Text
  | .shown => "Code".toList
  | .block => "Code.Block".toList
  | .exported => "Code.Export".toList
  | .application => "Application".toList

/-- The kind with the given marker. -/
def ofMarker? (name : Text) : Option CodeKind :=
  [shown, block, exported, application].find? fun kind => kind.marker = name

/-- Whether the code is shown on the page. -/
def isShown : CodeKind → Bool
  | .application => false
  | _ => true

/-- Whether the code is run. -/
def isRun : CodeKind → Bool
  | .shown => true
  | .application => true
  | _ => false

/-- Whether the code is published. -/
def isExported : CodeKind → Bool
  | .shown => true
  | .exported => true
  | _ => false

end CodeKind

/-- The kinds of media. -/
inductive MediaKind where
  | image
  | video
  deriving DecidableEq, Repr

/-- The name of the marker of a kind of media, without its `@`. -/
def MediaKind.marker : MediaKind → Text
  | .image => "Media.Image".toList
  | .video => "Media.Video".toList

/-- A block of a guide. -/
inductive Block where
  | text (prose : Text)
  | code (kind : CodeKind) (code : Text)
  | media (kind : MediaKind) (path : Text)
  deriving DecidableEq, Repr

/-- A guide. -/
structure Guide where
  directives : Directives
  /-- The import lines that programs carry, in the order of the guide. -/
  imports : List Text
  blocks : List Block
  deriving DecidableEq

namespace Guide

/-- The guide that says nothing. -/
def empty : Guide := ⟨.empty, [], []⟩

/-- The guide with one more block at its end. -/
def addBlock (guide : Guide) (block : Block) : Guide :=
  { guide with blocks := guide.blocks ++ [block] }

/-- The guide with one more import at its end. -/
def addImport (guide : Guide) (line : Text) : Guide :=
  { guide with imports := guide.imports ++ [line] }

/-- The guide with a directive; the last of several with one name counts. -/
def addDirective (guide : Guide) (name value : Text) : Guide :=
  { guide with directives := guide.directives.insert name value }

end Guide

end Guidebook
