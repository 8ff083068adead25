import Guidebook.Config
import Guidebook.GuideFile

/-!
# Settings of a Run

Where a run takes its guides from and where it puts what it generates.
-/

namespace Guidebook

/-- The settings of a run. -/
structure Settings where
  /-- The root of the guides. -/
  sources : Path
  /-- Where pages go. -/
  pages : Path
  /-- Where runnable programs go. -/
  runnable : Path
  /-- Where exported programs go. -/
  exported : Path
  /-- The public address of the exported programs. -/
  rootUrl : Option Text := none
  /-- What the sources cited on pages begin with; by default, the root of the guides. -/
  citationPrefix : Option Path := none
  /-- The patterns of what a scan leaves out. -/
  exclude : List Text := []
  deriving DecidableEq, Repr

namespace Settings

/-- The settings that a configuration means for the project at `root`. Directories are taken from
the root of the project; the sources are cited as they are configured. -/
def ofConfig (root : Path) (config : Config) : Settings :=
  { sources := root.join config.sources.root
    pages := root.join config.output.pages
    runnable := root.join config.output.runnable
    exported := root.join config.output.exported
    rootUrl := config.rootUrl
    citationPrefix := some (config.citationPrefix.getD config.sources.root)
    exclude := config.sources.exclude }

/-- The path by which a page cites its source. -/
def citedPath (settings : Settings) (file : GuideFile) : Path :=
  (settings.citationPrefix.getD settings.sources).join file.relativePath

end Settings

end Guidebook
