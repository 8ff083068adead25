import Guidebook.Event
import Guidebook.Failure
import Guidebook.Glob.Match
import Guidebook.Path.Basic

/-!
# Candidates

The candidates of a run are all files below a root, whatever their extension. Entries whose names
begin with a dot are left out, and so are those whose path from the root matches an exclude
pattern; of a directory that is left out, everything is.
-/

namespace Guidebook

/-- The patterns of what a scan leaves out. -/
abbrev ExcludeSet := List Glob

namespace ExcludeSet

/-- The glob pattern that a text holds, or the failure that it holds none. -/
def globOf (pattern : Text) : Except Failure Glob :=
  match Glob.parse pattern with
  | .ok glob => .ok glob
  | .error fault => .error (.invalidPattern pattern fault)

/-- The exclude set of some patterns, or the failure of the first that is not a glob pattern; if
there is none, of patterns that are nested too deep. -/
def ofPatterns (patterns : List Text) : Except Failure ExcludeSet :=
  match patterns.mapM globOf with
  | .error failure => .error failure
  | .ok globs =>
    match Glob.nestingFault? globs with
    | some fault => .error (.deepPatterns patterns fault)
    | none => .ok globs

/-- Whether some pattern matches a path. -/
def covers (exclude : ExcludeSet) (path : Path) : Bool :=
  exclude.any fun glob => glob.isMatch path

end ExcludeSet

/-- What a scan has found. -/
structure Scan where
  files : List Path
  events : List Event
  deriving DecidableEq

namespace Scan

/-- The scan that has found nothing. -/
def nothing : Scan := ⟨[], []⟩

/-- The findings of one scan and of another after it. -/
def append (s t : Scan) : Scan :=
  ⟨s.files ++ t.files, s.events ++ t.events⟩

instance : Append Scan := ⟨append⟩

/-- Whether a path ends with a name that begins with a dot. -/
def isHidden (path : Path) : Bool :=
  match path.fileName? with
  | some name => name.head? = some '.'
  | none => false

/-- Whether the path of an entry, seen from the root of the scan, is excluded. -/
def isExcluded (exclude : ExcludeSet) (root path : Path) : Bool :=
  match path.relativeTo? root with
  | some relative => exclude.covers relative
  | none => false

/-- What is found in a directory, at most `depth` levels deep. `order` is the order in which the
names in each directory are listed. -/
def directory (order : Path → List Text → List Text) (fs : FileSystem) (exclude : ExcludeSet)
    (root : Path) : Nat → Path → Except IoError Scan
  | 0, _ => .ok nothing
  | depth + 1, dir =>
    if fs.isDirectory dir then
      match fs.names dir with
      | .error e => .error e
      | .ok names =>
        (order dir names).foldlM (fun found name => do
          let path := dir.join ⟨name⟩
          if isHidden path then return found
          else if isExcluded exclude root path then return found ++ ⟨[], [.excluded path]⟩
          else if fs.isDirectory path then
            return found ++ (← directory order fs exclude root depth path)
          else if fs.isFile path then return found ++ ⟨[path], []⟩
          else return found) nothing
    else .ok nothing

/-- How many levels deep a tree can be at most. -/
def depthBound (fs : FileSystem) : Nat :=
  fs.tree.entries.entries.length + 1

/-- The candidates below a root, in ascending order, when directories are listed in the given
order. The root itself may be hidden; if it is no directory, there are none. -/
def listedBy (order : Path → List Text → List Text) (fs : FileSystem) (root : Path)
    (exclude : ExcludeSet) : Except Failure Scan :=
  match directory order fs exclude root (depthBound fs) root with
  | .ok found => .ok { found with files := Path.sort found.files }
  | .error e => .error (.io e)

/-- The candidates below a root, in ascending order. -/
def below (fs : FileSystem) (root : Path) (exclude : ExcludeSet) : Except Failure Scan :=
  listedBy (fun _ names => names) fs root exclude

end Scan

end Guidebook
