import Guidebook.Failure
import Guidebook.GuideFile
import Guidebook.Text.Line

/-!
# Entry Points

The name of the class that starts a program: its package without backticks, the name of its file,
and `Kt`.
-/

namespace Guidebook.EntryPoint

/-- The package that a program declares: what follows `package ` on the first line that begins so,
unless that is nothing. -/
def declaredPackage? (content : Text) : Option Text :=
  match (Text.lines content).findSome? fun line =>
      "package ".toList.isPrefixOf? (Text.trim line) with
  | none => none
  | some rest => if Text.trim rest = [] then none else some (Text.trim rest)

/-- The class that starts the program of the given name in the given package. -/
def className (package name : Text) : Text :=
  package.filter (· ≠ '`') ++ '.' :: (name ++ "Kt".toList)

/-- Whether a path is that of a program. -/
def isProgram (path : Path) : Bool :=
  Format.ofPath? path = some .kotlin

/-- The file at `path`, seen from `root`. -/
def fileBelow (root path : Path) : Except Failure GuideFile :=
  match GuideFile.ofPath? root path with
  | some file => .ok file
  | none => .error (.sourceOutsideRoot path root)

/-- The class of a file by the directory in which it lies below `root`. -/
def ofLocation (root path : Path) : Except Failure Text :=
  (fileBelow root path).map fun file => className file.toNamespace.package file.name

/-- The class of a program by the package that it declares, or else by its directory. -/
def ofContent (fs : FileSystem) (root path : Path) : Except Failure Text :=
  match fs.read path with
  | .error e => .error (.io e)
  | .ok content =>
    (fileBelow root path).map fun file =>
      className ((declaredPackage? content).getD file.toNamespace.package) file.name

/-- The classes of the programs among some files, by their directories. -/
def namesByLocation (root : Path) (paths : List Path) : Except Failure (List Text) :=
  (paths.filter isProgram).mapM (ofLocation root)

/-- The classes of the programs among some files, by the packages that they declare. -/
def namesByContent (fs : FileSystem) (root : Path) (paths : List Path) :
    Except Failure (List Text) :=
  (paths.filter isProgram).mapM (ofContent fs root)

end Guidebook.EntryPoint
