import Guidebook.Command.Run

/-!
# The Program

A command is carried out on a file tree. The program reads the directories that the command has to
do with into a tree, and brings what the command has changed in it back to the disk.

Of the files on the disk only guides and configuration files are read. Of any other file it is
enough to know that it is there: no command reads it, and one that is written over changes whatever
it held.
-/

namespace Guidebook.Disk

/-- The name of a location on the disk. -/
def nameOf (place : Location) : String :=
  String.ofList ('/' :: Text.join ['/'] place)

/-- The location that a name on the disk stands for. -/
def locationOf (name : String) : Location :=
  (Text.splitOn '/' name.toList).filter fun segment => !Path.isSilent segment

/-- Whether the content of a file of the given name matters. -/
def isRead (name : Text) : Bool :=
  Path.extensionOf? name = some "kt".toList || Path.extensionOf? name = some "toml".toList

/-- What lies at a location of the disk: a directory, a file, or nothing that counts. -/
def entryAt? (place : Location) : IO (Option Entry) := do
  let disk ← IO.currentDir
  let path := disk / nameOf place
  if ← path.isDir then return some .directory
  else if ← path.pathExists then
    if isRead (place.getLast?.getD []) then
      return some (.file (.ofBytes (← IO.FS.readBinFile path)))
    else return some (.file (.binary []))
  else return none

/-- The tree with what lies at a location of the disk. The directories on the way to it have to be
in the tree already. -/
def readEntry (tree : FileTree) (place : Location) : IO FileTree := do
  match place.getLast?, ← entryAt? place with
  | some name, some entry => return tree.put place.dropLast name entry
  | _, _ => return tree

/-- The tree with what lies at a location of the disk and up to `depth` levels below it. -/
def readBelow (tree : FileTree) (place : Location) : Nat → IO FileTree
  | 0 => readEntry tree place
  | depth + 1 => do
    let tree ← readEntry tree place
    if tree.entryAt? place = some .directory then
      let disk ← IO.currentDir
      let entries ← (disk / nameOf place).readDir
      entries.foldlM (fun tree entry => readBelow tree (place ++ [entry.fileName.toList]) depth)
        tree
    else return tree

/-- The file system with what lies at a path and up to `depth` levels below it, and with all the
directories on the way there. -/
def readPath (depth : Nat) (fs : FileSystem) (path : Path) : IO FileSystem := do
  let mut place := []
  let mut tree := fs.tree
  for segment in Text.splitOn '/' ((fs.workingPath.join path).text) do
    if segment = ['.', '.'] then place := place.dropLast
    else if !Path.isSilent segment then
      place := place ++ [segment]
      tree ← readEntry tree place
  return { fs with tree := ← readBelow tree place depth }

/-- Brings what is new in `after` to the disk. -/
def bringBack (before after : FileSystem) : IO Unit := do
  for (place, entry) in after.tree.entries.entries do
    if before.tree.entryAt? place ≠ some entry then
      match entry with
      | .directory => IO.FS.createDirAll (nameOf place)
      | .file content => IO.FS.writeBinFile (nameOf place) content.toBytes

/-- How many levels deep the directories of a command are read. -/
def deepest : Nat := 256

/-- The directories that the arguments have to do with, as they are on the disk: at first the
project, and then what its configuration names. -/
def load (arguments : List Text) : IO FileSystem := do
  let here := (← IO.currentDir).toString
  let empty : FileSystem := ⟨.empty, locationOf here⟩
  let start ← readPath 0 empty empty.workingPath
  match Invocation.ofArguments arguments with
  | .error _ => return start
  | .ok invocation =>
    let project ←
      (Command.reach start { invocation with command := none }).foldlM (readPath 2) start
    (Command.reach project invocation).tail.foldlM (readPath deepest) project

end Guidebook.Disk

/-- Carries out the command that the arguments ask for. -/
def main (arguments : List String) : IO UInt32 := do
  let arguments := arguments.map String.toList
  let before ← Guidebook.Disk.load arguments
  let result := Guidebook.Command.run before arguments
  Guidebook.Disk.bringBack before result.fs
  for line in result.output do
    IO.println (String.ofList line)
  for line in result.diagnostics do
    IO.eprintln (String.ofList line)
  return result.exitCode.toUInt32
