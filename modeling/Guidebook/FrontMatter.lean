import Guidebook.Path.Basic
import Guidebook.Table

/-!
# Front Matter

A documentation page begins with its front matter: a block of `key: value` lines between two
lines `---`. Title, parent and place in the navigation come from the directives of the guide.
-/

namespace Guidebook

/-- The directives of a guide: names and their values. -/
abbrev Directives := Table Text Text

/-- The front matter of a page. -/
structure FrontMatter where
  /-- The file to edit, as cited on the page. -/
  source : Text
  title : Option Text
  parent : Option Text
  navOrder : Option Text
  hasChildren : Bool
  deriving DecidableEq, Repr

namespace FrontMatter

/-- Whether a path names the index of its section: a file called `index` or `home`. -/
def isSectionIndex (path : Path) : Bool :=
  match path.stem? with
  | some stem => stem = "index".toList || stem = "home".toList
  | none => false

/-- The front matter of the page of a guide. The index of a section has children, and its parent
is `~` whatever its directives say. -/
def ofDirectives (source : Path) (directives : Directives) : FrontMatter :=
  let isIndex := isSectionIndex source
  { source := source.slashed
    title := directives.get? "Title".toList
    parent := if isIndex then some ['~'] else directives.get? "ParentTitle".toList
    navOrder := directives.get? "Order".toList
    hasChildren := isIndex }

/-- The line of a field; one without a value ends at its colon. -/
def fieldLine (key : Text) : Option Text → Text
  | some value => key ++ ": ".toList ++ value ++ ['\n']
  | none => key ++ ":\n".toList

/-- The text of the front matter. -/
def render (header : FrontMatter) : Text :=
  "---\n# File generated by dokgen. Do not edit.\n# Edit '".toList ++ header.source
    ++ "' instead.\nlayout: default\n".toList
    ++ fieldLine "title".toList header.title
    ++ fieldLine "parent".toList header.parent
    ++ fieldLine "nav_order".toList header.navOrder
    ++ (if header.hasChildren then "has_children: true\n---\n".toList
        else "has_children: false\n---\n".toList)

end FrontMatter

end Guidebook
