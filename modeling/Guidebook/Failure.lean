import Guidebook.FileTree.FileSystem
import Guidebook.Glob.Expression
import Guidebook.Glob.Parser

/-!
# Failures

What stops a whole run, as opposed to the rejection of one source.
-/

namespace Guidebook

/-- Why a run stops. -/
inductive Failure where
  /-- An operation on files failed. -/
  | io (error : IoError)
  /-- A guide in the retired markdown format. -/
  | unsupportedFormat (path : Path)
  /-- A guide without a directive that it needs. -/
  | missingDirective (directive file : Text)
  /-- A guide that does not lie below the root of the guides. -/
  | sourceOutsideRoot (path root : Path)
  /-- A configuration file that is not valid. -/
  | configSyntax
  /-- A pattern that is not a glob pattern. -/
  | invalidPattern (pattern : Text) (fault : Glob.Fault)
  /-- Patterns that cannot be used together. -/
  | deepPatterns (patterns : List Text) (fault : Glob.NestingFault)
  deriving DecidableEq, Repr

namespace Failure

/-- The wording of a failure. A failed reading of the configuration is explained by `help` alone. -/
def message : Failure → Text
  | .io error => error.message
  | .unsupportedFormat path => "unsupported source format: `".toList ++ path.text ++ ['`']
  | .missingDirective directive file =>
    "missing `".toList ++ directive ++ "` directive in `".toList ++ file ++ ['`']
  | .sourceOutsideRoot path root =>
    "source `".toList ++ path.text ++ "` is not inside the sources root `".toList ++ root.text
      ++ ['`']
  | .configSyntax => "failed to parse config file".toList
  | .invalidPattern pattern fault =>
    "invalid exclude pattern `".toList ++ pattern ++ "`: error parsing glob '".toList ++ pattern
      ++ "': ".toList ++ fault.message
  | .deepPatterns patterns fault =>
    "invalid exclude pattern `".toList ++ Text.join ", ".toList patterns ++ "`: ".toList
      ++ fault.message

/-- The code by which a failure is looked up. -/
def code : Failure → Text
  | .io _ => "dokgen::io_error".toList
  | .unsupportedFormat _ => "dokgen::unsupported_format".toList
  | .missingDirective _ _ => "dokgen::missing_directive".toList
  | .sourceOutsideRoot _ _ => "dokgen::source_outside_root".toList
  | .configSyntax => "dokgen::config_parse".toList
  | .invalidPattern _ _ => "dokgen::invalid_pattern".toList
  | .deepPatterns _ _ => "dokgen::invalid_pattern".toList

/-- What can be done about a failure. -/
def help? : Failure → Option Text
  | .unsupportedFormat _ =>
    some "dokgen only reads annotated .kt sources, please convert this file to .kt".toList
  | .missingDirective directive _ =>
    some ("add `@file:".toList ++ directive ++ "(\"...\")` to the top of the source file".toList)
  | .configSyntax =>
    some ("check that dokgen.toml is valid TOML with [sources], [output] and/or [web] ".toList
      ++ "sections".toList)
  | _ => none

end Failure

end Guidebook
