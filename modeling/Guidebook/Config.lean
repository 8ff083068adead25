import Guidebook.Event
import Guidebook.Failure
import Guidebook.Toml.Document

/-!
# Configuration

A project can be configured in a TOML file: where its guides lie, where pages and programs go, and
the public address of the exported programs. What the file does not say has a default.
-/

namespace Guidebook

/-- Where the guides lie, and which files there are none. -/
structure SourcesConfig where
  root : Path := ⟨"src/main/kotlin/docs".toList⟩
  exclude : List Text := []
  deriving DecidableEq, Repr

/-- Where pages and programs go. -/
structure OutputConfig where
  pages : Path := ⟨"build/dokgen/jekyll/docs".toList⟩
  runnable : Path := ⟨"build/dokgen/examples".toList⟩
  exported : Path := ⟨"build/dokgen/examples-export".toList⟩
  deriving DecidableEq, Repr

/-- The configuration of a project. -/
structure Config where
  sources : SourcesConfig := {}
  output : OutputConfig := {}
  /-- The public address of the exported programs. -/
  rootUrl : Option Text := none
  /-- What the sources cited on pages begin with; by default, the root of the guides. -/
  citationPrefix : Option Path := none
  deriving DecidableEq, Repr

namespace Config

/-! ### From a document -/

open Toml (Node field?)

/-- The values of the named fields of a record. Other fields mean nothing, but their numbers have to
be in range. A record may also be written as an array of its values in the order of the names, where
further values are not looked at; and a date is a record that has none of the fields. -/
def recordFields? (names : List Text) : Node → Option (List (Option Node))
  | .table _ fields =>
    if (fields.filter fun field => !names.contains field.1).all fun field => field.2.isInRange then
      some (names.map fun name => field? name fields)
    else none
  | .array items => some (names.mapIdx fun index _ => items[index]?)
  | .tables earlier last => some (names.mapIdx fun index _ => (earlier ++ [last])[index]?)
  | .date => some (names.map fun _ => none)
  | _ => none

/-- The text that a value is. -/
def text? : Node → Option Text
  | .text t => some t
  | _ => none

/-- The texts that a list of values are. -/
def texts? : Node → Option (List Text)
  | .array items => items.mapM text?
  | .tables earlier last => (earlier ++ [last]).mapM text?
  | _ => none

/-- What a field holds: its default if it is missing, none if its value is of the wrong kind. -/
def orDefault {α : Type} (default : α) (read : Node → Option α) : Option Node → Option α
  | none => some default
  | some node => read node

/-- A path in a field. -/
def path? (node : Node) : Option Path :=
  (text? node).map Path.mk

/-- The section `[sources]`. -/
def sources? (node : Node) : Option SourcesConfig := do
  match ← recordFields? ["root".toList, "exclude".toList] node with
  | [root, exclude] =>
    let defaults : SourcesConfig := {}
    return { root := ← orDefault defaults.root path? root
             exclude := ← orDefault defaults.exclude texts? exclude }
  | _ => none

/-- The section `[output]`. -/
def output? (node : Node) : Option OutputConfig := do
  match ← recordFields? ["docs".toList, "runnable".toList, "export".toList] node with
  | [pages, runnable, exported] =>
    let defaults : OutputConfig := {}
    return { pages := ← orDefault defaults.pages path? pages
             runnable := ← orDefault defaults.runnable path? runnable
             exported := ← orDefault defaults.exported path? exported }
  | _ => none

/-- The section `[web]`. -/
def web? (node : Node) : Option (Option Text) := do
  match ← recordFields? ["root_url".toList] node with
  | [url] => orDefault none (fun node => (text? node).map some) url
  | _ => none

/-- The configuration that a document holds. -/
def ofDocument? (document : Node) : Option Config := do
  let names := ["sources".toList, "output".toList, "web".toList, "citation_prefix".toList]
  match ← recordFields? names document with
  | [sources, output, web, citation] =>
    return { sources := ← orDefault {} sources? sources
             output := ← orDefault {} output? output
             rootUrl := ← orDefault none web? web
             citationPrefix := ← orDefault none (fun node => (path? node).map some) citation }
  | _ => none

/-- The configuration that a text holds. -/
def parse (t : Text) : Except Failure Config :=
  match (Toml.parse? t).bind ofDocument? with
  | some config => .ok config
  | none => .error .configSyntax

/-! ### From a project -/

/-- The places of a configuration file in a project, the first that is there counts. -/
def places : List Path :=
  [⟨"dokgen.toml".toList⟩, ⟨".dokgen.toml".toList⟩, ⟨".config/dokgen.toml".toList⟩]

/-- The configuration file of the project at `root`. -/
def file? (fs : FileSystem) (root : Path) : Option Path :=
  (places.map root.join).find? fs.isFile

/-- The configuration of the project at `root`, if it has one, and the event of finding out. -/
def load (fs : FileSystem) (root : Path) : Except Failure (Option Config × Event) :=
  match file? fs root with
  | none => .ok (none, .configMissing root)
  | some path =>
    match fs.read path with
    | .error e => .error (.io e)
    | .ok content => (parse content).map fun config => (some config, .configLoaded path)

end Config

end Guidebook
