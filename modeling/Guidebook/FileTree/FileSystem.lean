import Guidebook.FileTree.Basic

/-!
# File Systems

A file system is a file tree in which we stand in some directory. Its operations take paths. A path
is followed segment by segment: every segment but the last has to be that of a directory, `..` leads
back to the directory above, and a trailing `/` insists on a directory.
-/

namespace Guidebook

/-- Why an operation on files fails. -/
inductive IoError where
  | notFound
  | notADirectory
  | isADirectory
  | alreadyExists
  /-- The content of a file is not UTF-8. -/
  | invalidData
  /-- A path holds the character NUL. -/
  | invalidInput
  deriving DecidableEq, Repr

/-- The wording of a failed operation. -/
def IoError.message : IoError → Text
  | .notFound => "No such file or directory (os error 2)".toList
  | .notADirectory => "Not a directory (os error 20)".toList
  | .isADirectory => "Is a directory (os error 21)".toList
  | .alreadyExists => "File exists (os error 17)".toList
  | .invalidData => "stream did not contain valid UTF-8".toList
  | .invalidInput => "file name contained an unexpected NUL byte".toList

/-- A file tree and the directory in which relative paths start. -/
structure FileSystem where
  tree : FileTree
  here : Location
  deriving DecidableEq, Inhabited

namespace FileSystem

/-- The path of the directory in which we stand. -/
def workingPath (fs : FileSystem) : Path :=
  ⟨'/' :: Text.join ['/'] fs.here⟩

/-! ### Following paths -/

/-- The location at which a path starts. -/
def start (fs : FileSystem) (p : Path) : Location :=
  if p.isAbsolute then [] else fs.here

/-- The location that one segment leads to from `place`, which has to be a directory. -/
def enter (fs : FileSystem) (place : Location) (segment : Text) : Except IoError Location :=
  match fs.tree.entryAt? place with
  | none => .error .notFound
  | some (.file _) => .error .notADirectory
  | some .directory =>
    if Path.isSilent segment then .ok place
    else if segment = ['.', '.'] then .ok place.dropLast
    else if (fs.tree.entryAt? (place ++ [segment])).isSome then .ok (place ++ [segment])
    else .error .notFound

/-- The location that segments lead to. -/
def follow (fs : FileSystem) (place : Location) (segments : List Text) : Except IoError Location :=
  segments.foldlM fs.enter place

/-- The segments of a path, for an operation; an empty path leads nowhere. -/
def segmentsOf (p : Path) : Except IoError (List Text) :=
  if '\x00' ∈ p.text then .error .invalidInput
  else if p.text = [] then .error .notFound
  else .ok (Text.splitOn '/' p.text)

/-- The location of what lies at a path. -/
def locate (fs : FileSystem) (p : Path) : Except IoError Location := do
  fs.follow (fs.start p) (← segmentsOf p)

/-- What lies at a path. -/
def entryAt? (fs : FileSystem) (p : Path) : Option Entry :=
  match fs.locate p with
  | .ok place => fs.tree.entryAt? place
  | .error _ => none

/-- Whether there is a directory at the path. -/
def isDirectory (fs : FileSystem) (p : Path) : Bool :=
  fs.entryAt? p = some .directory

/-- Whether there is a file at the path. -/
def isFile (fs : FileSystem) (p : Path) : Bool :=
  match fs.entryAt? p with
  | some (.file _) => true
  | _ => false

/-! ### Reading -/

/-- The text of the file at a path. -/
def read (fs : FileSystem) (p : Path) : Except IoError Text := do
  match fs.tree.entryAt? (← fs.locate p) with
  | some (.file (.text t)) => return t
  | some (.file (.binary _)) => throw .invalidData
  | some .directory => throw .isADirectory
  | none => throw .notFound

/-- The names in the directory at a path. -/
def names (fs : FileSystem) (p : Path) : Except IoError (List Text) := do
  let place ← fs.locate p
  match fs.tree.entryAt? place with
  | some .directory => return fs.tree.namesIn place
  | some (.file _) => throw .notADirectory
  | none => throw .notFound

/-! ### Making files and directories -/

/-- A new entry that a path asks for. -/
inductive Target where
  /-- The entry of this name in the directory at `place`; `slash` tells whether the path goes on
  with a `/` behind the name. -/
  | new (place : Location) (name : Text) (slash : Bool)
  /-- No new entry: the path ends with `.` or `..`, or is the root. -/
  | old
  deriving DecidableEq, Repr

/-- What a path asks for when something is to be made there. -/
def target (fs : FileSystem) (p : Path) : Except IoError Target := do
  let segments ← segmentsOf p
  let named := (segments.reverse.dropWhile (· = [])).reverse
  match named.getLast? with
  | none => return .old
  | some last =>
    let place ← fs.follow (fs.start p) named.dropLast
    match fs.tree.entryAt? place with
    | some .directory =>
      if last = ['.'] ∨ last = ['.', '.'] then return .old
      else return .new place last (decide (named.length < segments.length))
    | _ => throw .notADirectory

/-- The file system with the file at a path, new or not, holding `content`. -/
def write (fs : FileSystem) (p : Path) (content : Content) : Except IoError FileSystem := do
  match ← fs.target p with
  | .old => throw .isADirectory
  | .new _ _ true => throw .isADirectory
  | .new place name false =>
    if fs.tree.entryAt? (place ++ [name]) = some .directory then throw .isADirectory
    else return { fs with tree := fs.tree.put place name (.file content) }

/-- The file system with a new directory at a path. -/
def makeDirectory (fs : FileSystem) (p : Path) : Except IoError FileSystem := do
  match ← fs.target p with
  | .old => throw .alreadyExists
  | .new place name _ =>
    if (fs.tree.entryAt? (place ++ [name])).isSome then throw .alreadyExists
    else return { fs with tree := fs.tree.put place name .directory }

/-- The outcome of an operation that may leave something behind even when it fails. -/
structure Attempt where
  fs : FileSystem
  error? : Option IoError
  deriving DecidableEq

/-- Makes a directory, and is content with one that is there already. -/
def ensureDirectory (fs : FileSystem) (p : Path) : Attempt :=
  match fs.makeDirectory p with
  | .ok fs => ⟨fs, none⟩
  | .error e => if fs.isDirectory p then ⟨fs, none⟩ else ⟨fs, some e⟩

/-- Makes the first of the directories, each of which lies in the next. Where something is missing
on the way to it, the next is made before it. -/
def ensureChain (fs : FileSystem) : List Path → Attempt
  | [] => ⟨fs, none⟩
  | p :: above =>
    match fs.makeDirectory p with
    | .error .notFound =>
      match fs.ensureChain above with
      | ⟨fs, none⟩ => fs.ensureDirectory p
      | failed => failed
    | _ => fs.ensureDirectory p

/-- Makes the directory at a path and all that is missing on the way to it. An empty path asks for
nothing. -/
def ensureDirectories (fs : FileSystem) (p : Path) : Attempt :=
  fs.ensureChain p.ancestors

/-- The file system without what lies at a path, and all that lies in it. -/
def remove (fs : FileSystem) (p : Path) : Except IoError FileSystem := do
  return { fs with tree := fs.tree.remove (← fs.locate p) }

end FileSystem

end Guidebook
