import Guidebook.Proofs.Guide.Composition

/-!
# Decorations of Programs

The package in which programs are declared, and the links of those that are published, come from
outside the guide. What the guide says is read without them, so they decide neither whether it is
accepted nor what becomes of its page. In a program the link stands in front, the package on the
line behind it, and both can be taken off again.

The number in a link counts the exported programs alone, whatever lies between them: it is the
place of the program among those that are published.

## Main results

* `withoutLink?_program`, `withPackage?_program`: a program without its decorations.
* `publish_some_link`: a public address adds links to the exported programs, and nothing else.
* `publish_decoration`: **package and links are decoration only**.
-/

namespace Guidebook

/-! ### What stands where -/

/-- What follows the line with the package of a program. -/
def afterPackage (imports : List Text) (code : Text) : Text :=
  '\n' :: ((imports.map fun line => line ++ ['\n']).flatten
    ++ (if imports = [] then [] else ['\n'])
    ++ "fun main() \x7b\n".toList
    ++ ((Text.lines code).map programLine).flatten
    ++ "\x7d\n".toList)

/-- A program is its link, the line of its package, and what follows that. -/
theorem program_eq (package : Text) (imports : List Text) (link : Option Text) (code : Text) :
    program package imports link code =
      linkComment link ++
        (("package ".toList ++ package) ++ '\n' :: afterPackage imports code) := by
  have hfeeds : "\n\n".toList = ['\n', '\n'] := by decide
  rw [program, afterPackage, hfeeds]
  simp only [List.append_assoc, List.cons_append, List.nil_append]

/-! ### Taking decorations off -/

/-- What is left of a program behind the comment with its link, if it begins with that. -/
def withoutLink? (link : Option Text) (program : Text) : Option Text :=
  (linkComment link).isPrefixOf? program

/-- The line in which a program declares its package. -/
def packageLine (package : Text) : Text :=
  "package ".toList ++ package ++ ['\n']

/-- The program with `other` as its package, if `package` is the one that it begins with. -/
def withPackage? (package other program : Text) : Option Text :=
  ((packageLine package).isPrefixOf? program).map (packageLine other ++ ·)

section Programs

variable (package other : Text) (imports : List Text) (link : Option Text) (code : Text)

/-- Behind the link stands the program without one. -/
theorem withoutLink?_program :
    withoutLink? link (program package imports link code) =
      some (program package imports none code) := by
  rw [withoutLink?, List.isPrefixOf?_eq_some_iff_append_eq, program_eq, program_eq]
  rfl

/-- A program without a link begins with the line of its package, and nothing behind that line
depends on it. -/
theorem program_none :
    program package imports none code = packageLine package ++ afterPackage imports code :=
  calc program package imports none code
      = [] ++ (("package ".toList ++ package) ++ '\n' :: afterPackage imports code) :=
        program_eq package imports none code
    _ = packageLine package ++ afterPackage imports code :=
        List.append_cons ("package ".toList ++ package) '\n' (afterPackage imports code)

/-- With another package it is the program that is declared there. -/
theorem withPackage?_program :
    withPackage? package other (program package imports none code) =
      some (program other imports none code) := by
  have hbehind : (packageLine package).isPrefixOf? (program package imports none code) =
      some (afterPackage imports code) :=
    List.isPrefixOf?_eq_some_iff_append_eq.2 (program_none package imports code).symm
  rw [withPackage?, hbehind, program_none other]
  rfl

end Programs

/-! ### Publications with different decorations -/

/-- How programs are decorated: the package that they declare, and the links of the exported
ones. -/
structure Decoration where
  package : Text
  link : Option PublicLink

/-- The link of the exported program with the given number. -/
def Decoration.linkAt (decoration : Decoration) (index : Nat) : Option Text :=
  decoration.link.map (·.address index)

/-- The programs are the same once each link is taken off, and the package of the first is replaced
by that of the second. -/
def SameProgram (package other : Text) (link otherLink : Option Text) (first second : Text) :
    Prop :=
  ∃ bare, (withoutLink? link first).bind (withPackage? package other) = some bare ∧
    withoutLink? otherLink second = some bare

/-- The programs of two lists are the same one by one, each taken with the link of its number. -/
def SamePrograms (package other : Text) (linkAt otherLinkAt : Nat → Option Text)
    (first second : List Text) : Prop :=
  first.length = second.length ∧
    ∀ (index : Nat) (one two : Text), first[index]? = some one → second[index]? = some two →
      SameProgram package other (linkAt index) (otherLinkAt index) one two

/-- The publications differ in their decorations alone: runnable programs carry no links, and each
exported one carries the link with its number. -/
structure SameButDecoration (decoration other : Decoration) (first second : Publication) :
    Prop where
  directives : first.directives = second.directives
  page : first.page = second.page
  runnable : SamePrograms decoration.package other.package (fun _ => none) (fun _ => none)
    first.runnable second.runnable
  exported : SamePrograms decoration.package other.package decoration.linkAt other.linkAt
    first.exported second.exported

/-- The publication with the comment in front of each exported program that holds its link. -/
def Publication.linked (link : PublicLink) (plain : Publication) : Publication :=
  { plain with
    exported := plain.exported.mapIdx fun index program =>
      "// This example is published at ".toList ++ link.address index ++ "\n\n".toList ++ program }

/-- The programs of one code are the same in any two packages and with any two links. -/
theorem sameProgram_program (package other : Text) (imports : List Text)
    (link otherLink : Option Text) (code : Text) :
    SameProgram package other link otherLink (program package imports link code)
      (program other imports otherLink code) := by
  refine ⟨program other imports none code, ?_, withoutLink?_program other imports otherLink code⟩
  rw [withoutLink?_program, Option.bind_some, withPackage?_program]

/-- Programs of the same codes are the same. -/
theorem samePrograms_mapIdx (package other : Text) (imports : List Text)
    (linkAt otherLinkAt : Nat → Option Text) (codes : List Text) :
    SamePrograms package other linkAt otherLinkAt
      (codes.mapIdx fun index code => program package imports (linkAt index) code)
      (codes.mapIdx fun index code => program other imports (otherLinkAt index) code) := by
  refine ⟨by rw [List.length_mapIdx, List.length_mapIdx], fun index one two hone htwo => ?_⟩
  rw [List.getElem?_mapIdx, Option.map_eq_some_iff] at hone htwo
  obtain ⟨code, hcode, rfl⟩ := hone
  obtain ⟨same, hsame, rfl⟩ := htwo
  obtain rfl : code = same := Option.some.inj (hcode.symm.trans hsame)
  exact sameProgram_program package other imports (linkAt index) (otherLinkAt index) code

namespace Guide

/-- The publications of one guide differ in their decorations alone. -/
theorem sameButDecoration_publication (guide : Guide) (decoration other : Decoration) :
    SameButDecoration decoration other (guide.publication decoration.package decoration.link)
      (guide.publication other.package other.link) where
  directives := rfl
  page := rfl
  runnable := by
    have hmap : ∀ package, (guide.codes (·.isRun)).map (program package guide.imports none) =
        (guide.codes (·.isRun)).mapIdx fun _ code => program package guide.imports none code :=
      fun package => List.ext_getElem? fun i => by rw [List.getElem?_map, List.getElem?_mapIdx]
    rw [publication, publication, hmap, hmap]
    exact samePrograms_mapIdx _ _ _ _ _ _
  exported := samePrograms_mapIdx _ _ _ _ _ _

/-- **A public address adds links** to the exported programs, each with its number, and changes
nothing else. -/
theorem publish_some_link (content package : Text) (link : PublicLink) :
    publish content package (some link) =
      (publish content package none).map (Publication.linked link) := by
  rw [publish, publish]
  cases read content with
  | error e => rfl
  | ok guide =>
      have hlinked : ∀ index code, program package guide.imports (some (link.address index)) code =
          "// This example is published at ".toList ++ link.address index ++ "\n\n".toList
            ++ program package guide.imports none code :=
        fun index code => program_some package guide.imports (link.address index) code
      simp only [Except.map, publication, Publication.linked, Option.map_some, Option.map_none,
        List.mapIdx_mapIdx, Function.comp_def, hlinked]

/-- **Package and links are decoration only.** Whatever they are, a source is rejected with the same
message at the same line, or accepted with the same directives, the same page and equally many
programs, which are the same but for the decorations. A public address adds to each exported program
the comment with its link, and nothing to any other. -/
theorem publish_decoration (content : Text) (decoration other : Decoration) :
    ((∃ rejection, publish content decoration.package decoration.link = .error rejection ∧
          publish content other.package other.link = .error rejection) ∨
        ∃ first second, publish content decoration.package decoration.link = .ok first ∧
          publish content other.package other.link = .ok second ∧
          SameButDecoration decoration other first second) ∧
      ∀ link, publish content decoration.package (some link) =
        (publish content decoration.package none).map (Publication.linked link) := by
  refine ⟨?_, publish_some_link content decoration.package⟩
  cases hread : read content with
  | error e =>
      left
      exact ⟨e.toRejection, by rw [publish, hread], by rw [publish, hread]⟩
  | ok guide =>
      right
      exact ⟨_, _, publish_eq_ok_iff.2 ⟨guide, hread, rfl⟩, publish_eq_ok_iff.2 ⟨guide, hread, rfl⟩,
        guide.sameButDecoration_publication decoration other⟩

end Guide

end Guidebook
