import BuildScript.Command.Arguments
import BuildScript.Files.Script

/-!
# Runs

A run converts a script from standard input or from a file, or every script of a directory.  It
maps the files and the input that it finds to what it prints and the files that it leaves.
-/

namespace BuildScript.Command

/-! ## Failures -/

inductive Failure where
  | parse (error : ParseError)
  | unreadableInput (reason : FileError)
  | unwritable (path : String) (reason : FileError)
  | writeNeedsFile
  | outputForDirectory
  | scriptsFailed (failed total : Nat)
  deriving DecidableEq

namespace Failure

def message : Failure → String
  | parse error => error.message
  | unreadableInput _ => "Cannot read standard input"
  | unwritable path _ => "Cannot write " ++ path
  | writeNeedsFile => "--write requires an input file"
  | outputForDirectory => "--output cannot be used with a directory; use --write"
  | scriptsFailed failed total => toString failed ++ " of " ++ toString total ++ " scripts failed"

def cause? : Failure → Option FileError
  | parse error => error.cause?
  | unreadableInput reason => some reason
  | unwritable _ reason => some reason
  | _ => none

/-- The report of the failure that ends a run. -/
def report (failure : Failure) : String :=
  "Error: " ++ failure.message ++ "\n" ++
    match failure.cause? with
    | none => ""
    | some cause => "\nCaused by:\n    " ++ cause.message ++ "\n"

/-- The report of a failure that the run survives, in one line. -/
def line (failure : Failure) : String :=
  "Error: " ++ failure.message ++
    match failure.cause? with
    | none => "\n"
    | some cause => ": " ++ cause.message ++ "\n"

end Failure

/-! ## Conversions -/

/-- What a conversion acts on: what has been printed, and the files. -/
structure World where
  stdout : Bytes
  files : FileSystem

/-- A conversion ends at its first failure.  What it has done until then stays. -/
abbrev Conversion := EStateM Failure World Unit

def print (bytes : Bytes) : Conversion :=
  modify fun world => { world with stdout := world.stdout ++ bytes }

def writeFile (path : String) (bytes : Bytes) : Conversion := do
  match (← get).files.write path bytes with
  | .ok files => modify fun world => { world with files }
  | .error reason => throw (.unwritable path reason)

/-- Write bytes to a file, or print them. -/
def deliver (target : Option String) (bytes : Bytes) : Conversion :=
  match target with
  | none => print bytes
  | some path => writeFile path bytes

/-- The file that the output for a script file goes to. -/
def targetOf (settings : Settings) (path : String) : Option String :=
  match settings.output with
  | some output => some output
  | none =>
    if settings.write then some (FileName.withExtension path settings.format.extension) else none

/-- What is done with the document of a script of a name. -/
def finish (settings : Settings) (name : String) (target : Option String) (doc : Document) :
    Conversion :=
  if settings.check then print (encodeUtf8 (name ++ ": ok\n"))
  else deliver target (settings.format.content doc)

def convertFile (settings : Settings) (path : String) : Conversion := do
  match parseFile (← get).files settings.options path with
  | .error error => throw (.parse error)
  | .ok doc => finish settings path (targetOf settings path) doc

def convertInput (settings : Settings) (stdin : Bytes) : Conversion :=
  if settings.write then throw .writeNeedsFile
  else match decodeUtf8? stdin with
    | none => throw (.unreadableInput .notText)
    | some text =>
      match parseText { settings.options with filename := some "<stdin>" } text with
      | .error error => throw (.parse error)
      | .ok doc => finish settings "<stdin>" settings.output doc

/-! ## Results -/

/-- What a run leaves behind. -/
structure Result where
  code : Nat
  stdout : Bytes
  stderr : String
  files : FileSystem

/-- A run that makes one conversion. -/
def Result.ofConversion (files : FileSystem) (conversion : Conversion) : Result :=
  match conversion.run ⟨[], files⟩ with
  | .ok _ world => ⟨0, world.stdout, "", world.files⟩
  | .error failure world => ⟨1, world.stdout, failure.report, world.files⟩

/-- A run over several scripts as far as it has come. -/
structure Progress extends World where
  stderr : String
  failed : Nat

/-- Convert one more script.  A failure is reported and does not end the run. -/
def Progress.step (settings : Settings) (progress : Progress) (path : String) : Progress :=
  match (convertFile settings path).run progress.toWorld with
  | .ok _ world => ⟨world, progress.stderr, progress.failed⟩
  | .error failure world => ⟨world, progress.stderr ++ failure.line, progress.failed + 1⟩

/-- The paths of the scripts in a directory, in order. -/
def scripts (files : FileSystem) (directory : String) : List String :=
  ((files.entries directory).filter (FileName.hasExtension "gradle")).map
    (FileName.inDirectory directory)

def convertDirectory (settings : Settings) (files : FileSystem) (directory : String) : Result :=
  if settings.output.isSome then ⟨1, [], Failure.outputForDirectory.report, files⟩
  else
    let paths := scripts files directory
    let progress := paths.foldl (Progress.step settings) ⟨⟨[], files⟩, "", 0⟩
    if progress.failed = 0 then ⟨0, progress.stdout, progress.stderr, progress.files⟩
    else
      let failure := Failure.scriptsFailed progress.failed paths.length
      ⟨1, progress.stdout, progress.stderr ++ failure.report, progress.files⟩

/-! ## The command -/

/-- What a run finds. -/
structure Invocation where
  arguments : List String
  environment : String → Option String
  stdin : Bytes
  files : FileSystem

def versionText : String := "gradle2json 1.0.0\n"

def usage : String :=
  "Usage: gradle2json [OPTIONS] <PATH>\n\n" ++
  "PATH is a build script, a directory of scripts, or - for standard input.\n\n" ++
  "Options:\n" ++
  "  -t, --to <FORMAT>    Output format: json, yaml, toml or cbor (default: json)\n" ++
  "  -o, --output <FILE>  Write output to the given file\n" ++
  "  -w, --write          Write output next to each input\n" ++
  "      --check          Only check that each script parses\n" ++
  "      --max-depth <N>  Deepest block nesting accepted\n" ++
  "      --max-bytes <N>  Largest input accepted, in bytes\n" ++
  "  -v, --verbose        Enable verbose output\n" ++
  "  -h, --help           Print help\n" ++
  "  -V, --version        Print version\n"

def convert (settings : Settings) (files : FileSystem) (stdin : Bytes) : Result :=
  if settings.path = "-" then .ofConversion files (convertInput settings stdin)
  else if files.isDirectory settings.path then convertDirectory settings files settings.path
  else .ofConversion files (convertFile settings settings.path)

def run (invocation : Invocation) : Result :=
  match settings invocation.arguments invocation.environment with
  | .ok settings => convert settings invocation.files invocation.stdin
  | .error .misused => ⟨2, [], usage, invocation.files⟩
  | .error .help => ⟨0, encodeUtf8 usage, "", invocation.files⟩
  | .error .version => ⟨0, encodeUtf8 versionText, "", invocation.files⟩

end BuildScript.Command
