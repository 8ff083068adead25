import Guidebook.Event
import Guidebook.Guide.Publication
import Guidebook.Settings
import Guidebook.Text.UpperCase

/-!
# Plans

What has to be done to put a publication in its place: directories to be made sure of, and files to
be written, in order. The page and the runnable programs follow the place that the directive `URL`
names, the exported programs follow the place of the guide.
-/

namespace Guidebook

/-- One thing to be done. -/
inductive Step where
  /-- Make sure of a directory. -/
  | ensure (directory : Path)
  /-- Write a file. -/
  | write (kind : OutputKind) (path : Path) (content : Text)
  deriving DecidableEq, Repr

/-- The files that belong to a guide. -/
structure Outputs where
  page : Path
  runnable : List Path
  exported : List Path
  deriving DecidableEq, Repr

/-- What has to be done for a guide, and the files that it results in. -/
structure Plan where
  steps : List Step
  outputs : Outputs
  deriving DecidableEq, Repr

/-- The place that a directive `URL` names, without slashes at its beginning; none if that leaves
nothing. -/
def publishPlace? (directives : Directives) : Option Path :=
  match directives.get? "URL".toList with
  | none => none
  | some url =>
    let place := (Text.trim url).dropWhile (· = '/')
    if place = [] then none else some ⟨place⟩

/-- The files of numbered programs in a directory. -/
def programPaths (directory : Path) (name extension : Text) (programs : List Text) : List Path :=
  programs.mapIdx fun index _ =>
    directory.join ⟨name ++ paddedIndex index ++ '.' :: extension⟩

/-- The steps that put programs in their place: none at all if there are no programs. -/
def programSteps (kind : OutputKind) (directory : Path) (paths : List Path)
    (programs : List Text) : List Step :=
  if programs = [] then []
  else .ensure directory :: (paths.zip programs).map fun (path, content) => .write kind path content

namespace Plan

/-- The plan for the publication of a guide at the given place. -/
def ofPublication (settings : Settings) (file : GuideFile) (publication : Publication)
    (place : Path) : Plan :=
  let directory := GuideFile.directoryOf place
  let name := place.fileName?.getD []
  let pages := settings.pages.join directory
  let page := pages.join ⟨name ++ ".markdown".toList⟩
  let header := FrontMatter.ofDirectives (settings.citedPath file) publication.directives
  let runnableIn := settings.runnable.join directory
  let runnable := programPaths runnableIn (Text.capitalize name) file.extension publication.runnable
  let exportedIn := settings.exported.join file.relativeDirectory
  let exported := programPaths exportedIn file.name file.extension publication.exported
  { steps :=
      [.ensure pages, .write .page page (header.render ++ publication.page)]
        ++ programSteps .runnable runnableIn runnable publication.runnable
        ++ programSteps .exported exportedIn exported publication.exported
    outputs := ⟨page, runnable, exported⟩ }

end Plan

end Guidebook
