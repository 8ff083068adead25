import Guidebook.Batch.Run
import Guidebook.Candidates
import Guidebook.Command.Arguments
import Guidebook.EntryPoint

/-!
# Commands

What the commands do: they set up a configuration file, generate everything from the guides, or list
the classes that start the generated programs. A command changes the file system, prints, and ends
with an exit code: 0 if all went well, 1 if sources were skipped, 2 if it failed.
-/

namespace Guidebook

/-- What a command leaves behind. -/
structure CommandResult where
  fs : FileSystem
  exitCode : Nat
  /-- The lines printed. -/
  output : List Text
  /-- The lines printed as diagnostics. -/
  diagnostics : List Text
  deriving DecidableEq

namespace Command

/-- The sample configuration that `init` writes. -/
def sampleConfig : Text :=
  ("# dokgen configuration\n\n# Path prefix cited in the header of generated pages.\n"
    ++ "# citation_prefix = \"src/main/kotlin/docs\"\n\n[sources]\n"
    ++ "root = \"src/main/kotlin/docs\"\n# exclude = [\"**/drafts/**\"]\n\n[output]\n"
    ++ "docs = \"build/dokgen/jekyll/docs\"\nrunnable = \"build/dokgen/examples\"\n"
    ++ "export = \"build/dokgen/examples-export\"\n\n# Public location of exported examples.\n"
    ++ "# [web]\n"
    ++ "# root_url = \"https://github.com/<owner>/<repo>/blob/main/src/main/kotlin\"\n").toList

/-- The path as seen from the project, if it lies in it. -/
def shown (root path : Path) : Text :=
  ((path.relativeTo? root).getD path).text

/-- The command ends with a failure. -/
def failed (fs : FileSystem) (output : List Text) (failure : Failure) : CommandResult :=
  ⟨fs, 2, output, [failure.code]⟩

/-! ### Settings -/

/-- The settings with some of them replaced, for the project at `root` with the given
configuration. Guides in a directory that is given in place of the configured one are cited by it,
unless the configuration says how to cite them. -/
def override (root : Path) (config : Option Config) (overrides : Overrides) : Settings :=
  let settings := Settings.ofConfig root (config.getD {})
  let citesAsGiven :=
    match config with
    | none => true
    | some config => config.citationPrefix.isNone
  { settings with
    sources := (overrides.sources.map root.join).getD settings.sources
    citationPrefix :=
      if citesAsGiven then overrides.sources.or settings.citationPrefix
      else settings.citationPrefix
    pages := (overrides.pages.map root.join).getD settings.pages
    runnable := (overrides.runnable.map root.join).getD settings.runnable
    exported := (overrides.exported.map root.join).getD settings.exported
    rootUrl := overrides.rootUrl.or settings.rootUrl }

/-- The settings of the project at `root`, some of them replaced. -/
def settings (fs : FileSystem) (root : Path) (overrides : Overrides) : Except Failure Settings :=
  (Config.load fs root).map fun (config, _) => override root config overrides

/-! ### init -/

/-- Sets up a configuration file, if there is none. -/
def runInit (fs : FileSystem) (root : Path) : CommandResult :=
  match Config.file? fs root with
  | some existing =>
    ⟨fs, 0, ["Config file already exists: ".toList ++ existing.text], []⟩
  | none =>
    let path := root.join ⟨"dokgen.toml".toList⟩
    match fs.write path (.text sampleConfig) with
    | .error e => ⟨fs, 2, [], ["error: ".toList ++ e.message]⟩
    | .ok fs =>
      ⟨fs, 0,
        ["Created ".toList ++ path.text, [], "Next steps:".toList,
          "  1. Point [sources] root at your annotated guides".toList,
          "  2. Run `dokgen generate` to write pages and examples".toList],
        []⟩

/-! ### generate -/

/-- The summary of a run, in a sentence. -/
def summary (report : Report) : Text :=
  "Generated ".toList ++ Text.ofNat report.pages.length ++ " page(s), ".toList
    ++ Text.ofNat report.runnable.length ++ " runnable and ".toList
    ++ Text.ofNat report.exported.length ++ " exported example(s).".toList

/-- What is printed at the end of a run. -/
def reportLines (report : Report) (root : Path) (verbose : Bool) : List Text :=
  (if verbose then
    (report.pages ++ report.runnable ++ report.exported).map fun path =>
      "  ".toList ++ shown root path
  else [])
    ++ [summary report]
    ++ if report.isOk then []
      else [Text.ofNat report.skipped.length ++ " file(s) skipped.".toList]

/-- The warnings of a run. -/
def warningLines (report : Report) : List Text :=
  report.skipped.map fun skipped =>
    "warning: skipped ".toList ++ skipped.file.text ++ ": ".toList ++ skipped.rejection.display

/-- Generates everything. -/
def runGenerate (fs : FileSystem) (root : Path) (verbose : Bool) (overrides : Overrides) :
    CommandResult :=
  match settings fs root overrides with
  | .error failure => failed fs [] failure
  | .ok settings =>
    match ExcludeSet.ofPatterns settings.exclude with
    | .error failure => failed fs [] failure
    | .ok exclude =>
      match Scan.below fs settings.sources exclude with
      | .error failure => failed fs [] failure
      | .ok found =>
        let scanned :=
          if verbose then
            ["Scanned ".toList ++ shown root settings.sources ++ ": ".toList
              ++ Text.ofNat found.files.length ++ " candidate file(s)".toList]
          else []
        let run := Guidebook.generate Guide.publish settings fs found.files
        match run.result with
        | .error failure => failed run.fs scanned failure
        | .ok report =>
          ⟨run.fs, if report.isOk then 0 else 1, scanned ++ reportLines report root verbose,
            warningLines report⟩

/-! ### class-names -/

/-- The hexadecimal digits of a control character in an escape. -/
def hexDigits (n : Nat) : Text :=
  (Nat.toDigits 16 n).leftpad 4 '0'

/-- A character as it is written in a JSON string. -/
def jsonCharacter (c : Char) : Text :=
  if c = '"' then "\\\"".toList
  else if c = '\\' then "\\\\".toList
  else if c = '\x08' then "\\b".toList
  else if c = '\t' then "\\t".toList
  else if c = '\n' then "\\n".toList
  else if c = '\x0c' then "\\f".toList
  else if c = '\r' then "\\r".toList
  else if c.toNat < 0x20 then "\\u".toList ++ hexDigits c.toNat
  else [c]

/-- A list of texts as a JSON array, with a line for each. -/
def jsonLines : List Text → List Text
  | [] => ["[]".toList]
  | names =>
    ['['] ::
      (names.mapIdx fun index name =>
        "  \"".toList ++ name.flatMap jsonCharacter
          ++ if index + 1 = names.length then ['"'] else "\",".toList)
      ++ [[']']]

/-- Lists the classes that start the programs in a directory; by default, where the runnable
programs go. -/
def runClassNames (fs : FileSystem) (root : Path) (directory : Option Path) (asJson : Bool) :
    CommandResult :=
  let place : Except Failure Path :=
    match directory with
    | some directory => .ok (root.join directory)
    | none => (settings fs root {}).map (·.runnable)
  match place with
  | .error failure => failed fs [] failure
  | .ok directory =>
    match Scan.below fs directory [] with
    | .error failure => failed fs [] failure
    | .ok found =>
      match EntryPoint.namesByContent fs directory found.files with
      | .error failure => failed fs [] failure
      | .ok names => ⟨fs, 0, if asJson then jsonLines names else names, []⟩

/-! ### Command lines -/

/-- The directories that a command has to do with: the project, where it takes its files from, and
where it puts them. -/
def reach (fs : FileSystem) (invocation : Invocation) : List Path :=
  let root := invocation.project.getD (fs.workingPath)
  let inSettings (overrides : Overrides) (choose : Settings → List Path) : List Path :=
    match settings fs root overrides with
    | .ok settings => choose settings
    | .error _ => []
  root ::
    match invocation.command with
    | some (.generate overrides) =>
      inSettings overrides fun settings =>
        [settings.sources, settings.pages, settings.runnable, settings.exported]
    | some (.classNames (some directory) _) => [root.join directory]
    | some (.classNames none _) => inSettings {} fun settings => [settings.runnable]
    | some .init => []
    | none => []

/-- Does what the arguments ask for. -/
def run (fs : FileSystem) (arguments : List Text) : CommandResult :=
  match Invocation.ofArguments arguments with
  | .error (.usage e) => ⟨fs, 2, [], ["error: ".toList ++ e.message]⟩
  | .error .version => ⟨fs, 0, ["dokgen_cli 0.1.0".toList], []⟩
  | .error .help => ⟨fs, 0, [], []⟩
  | .ok invocation =>
    let root := invocation.project.getD (fs.workingPath)
    match invocation.command with
    | none =>
      ⟨fs, 1, [], ["No subcommand specified. Run `dokgen --help` for usage.".toList]⟩
    | some .init => runInit fs root
    | some (.generate overrides) => runGenerate fs root invocation.verbose overrides
    | some (.classNames directory asJson) => runClassNames fs root directory asJson

end Command

end Guidebook
