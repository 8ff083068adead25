import Guidebook.Guide.Reader
import Guidebook.GuideFile

/-!
# Publications

What a guide is turned into: the body of a page, the programs that are run to produce its media,
and the programs that are published. Where a public address for these is configured, each of them
has a link: the address, `examples`, the directory of its guide, and the name of its file.
-/

namespace Guidebook

/-! ### Public links -/

/-- What the links of one guide have in common. -/
structure PublicLink where
  /-- The address of the directory that the programs are published in. -/
  directory : Text
  /-- The name of the guide. -/
  name : Text
  /-- The extension of the guide. -/
  extension : Text
  deriving DecidableEq, Repr

namespace PublicLink

/-- The links of the guide `file` below the address `base`; slashes at the end of `base` do not
count. -/
def ofGuide (base : Text) (file : GuideFile) : PublicLink :=
  let top := Text.dropEndWhile (· = '/') base ++ '/' :: Namespace.root
  let inner := file.relativeDirectory.slashed
  { directory := if inner = [] then top else top ++ '/' :: inner
    name := file.name
    extension := file.extension }

/-- The link of the program with the given number. -/
def address (link : PublicLink) (index : Nat) : Text :=
  link.directory ++ '/' :: (link.name ++ paddedIndex index ++ '.' :: link.extension)

end PublicLink

/-! ### Publications -/

/-- Everything that is generated from one source, and its directives. -/
structure Publication where
  directives : Directives
  /-- The body of the page, without front matter. -/
  page : Text
  runnable : List Text
  exported : List Text
  deriving DecidableEq

/-- What can turn the content of a source into a publication, given the package of the programs
and, where there is a public address, the links of the exported ones. -/
abbrev Publisher := Text → Text → Option PublicLink → Except Rejection Publication

/-- One step of indentation. -/
def indentation : Text := "    ".toList

/-- The markup of an image or video. -/
def MediaKind.render : MediaKind → Text → Text
  | .image, path => "![](".toList ++ path ++ [')']
  | .video, path =>
    "<video controls>\n".toList ++ indentation ++ "<source src=\"".toList ++ path
      ++ "\" type=\"video/mp4\">\n</video>".toList

/-- The sections that a block adds to the page. -/
def Block.sections : Block → List Text
  | .text prose => if prose = [] then [] else [prose]
  | .media kind path => [kind.render path]
  | .code kind content =>
    if kind.isShown then ["```kotlin\n".toList ++ content ++ "\n```".toList] else []

/-- The code of a block whose kind satisfies `p`. -/
def Block.code? (p : CodeKind → Bool) : Block → Option Text
  | .code kind content => if p kind then some content else none
  | _ => none

/-- The comment that tells where a program is published. -/
def linkComment : Option Text → Text
  | some link => "// This example is published at ".toList ++ link ++ "\n\n".toList
  | none => []

/-- A line of a program, within `fun main`. An empty line stays empty. -/
def programLine (line : Text) : Text :=
  (if line = [] then [] else indentation ++ line) ++ ['\n']

/-- The program that consists of the given code. -/
def program (package : Text) (imports : List Text) (link : Option Text) (code : Text) : Text :=
  linkComment link ++ "package ".toList ++ package ++ "\n\n".toList
    ++ (imports.map fun line => line ++ ['\n']).flatten
    ++ (if imports = [] then [] else ['\n'])
    ++ "fun main() \x7b\n".toList
    ++ ((Text.lines code).map programLine).flatten
    ++ "\x7d\n".toList

namespace Guide

/-- The sections of the page, in order. -/
def sections (guide : Guide) : List Text :=
  guide.blocks.flatMap Block.sections

/-- The body of the page: the sections with a blank line between neighbours. -/
def page (guide : Guide) : Text :=
  let body := Text.join "\n\n".toList guide.sections
  if body = [] then [] else body ++ ['\n']

/-- The codes that satisfy `p`, in order. -/
def codes (guide : Guide) (p : CodeKind → Bool) : List Text :=
  guide.blocks.filterMap (Block.code? p)

/-- The publication of a guide. -/
def publication (guide : Guide) (package : Text) (link : Option PublicLink) : Publication :=
  { directives := guide.directives
    page := guide.page
    runnable := (guide.codes CodeKind.isRun).map (program package guide.imports none)
    exported := (guide.codes CodeKind.isExported).mapIdx fun index code =>
      program package guide.imports (link.map (·.address index)) code }

/-- **The publisher of annotated guides.** -/
def publish : Publisher := fun content package link =>
  match read content with
  | .ok guide => .ok (guide.publication package link)
  | .error e => .error e.toRejection

end Guide

end Guidebook
