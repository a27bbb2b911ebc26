import BuildScript.Format
import BuildScript.Script

/-!
# Arguments

The command takes one path and options.  Options are long or short, a value follows its option or
is attached to it, short switches may share one dash, and `--` ends the options.  No option may be
given twice.
-/

namespace BuildScript.Command

/-- Options without a value. -/
inductive Switch where
  | write
  | check
  | verbose
  | help
  | version
  deriving DecidableEq

/-- Options with a value. -/
inductive Parameter where
  | format
  | output
  | maxDepth
  | maxBytes
  deriving DecidableEq

inductive Flag where
  | switch (switch : Switch)
  | parameter (parameter : Parameter)

def Flag.ofLong? : String → Option Flag
  | "to" => some (.parameter .format)
  | "output" => some (.parameter .output)
  | "max-depth" => some (.parameter .maxDepth)
  | "max-bytes" => some (.parameter .maxBytes)
  | "write" => some (.switch .write)
  | "check" => some (.switch .check)
  | "verbose" => some (.switch .verbose)
  | "help" => some (.switch .help)
  | "version" => some (.switch .version)
  | _ => none

def Flag.ofShort? : Char → Option Flag
  | 't' => some (.parameter .format)
  | 'o' => some (.parameter .output)
  | 'w' => some (.switch .write)
  | 'v' => some (.switch .verbose)
  | 'h' => some (.switch .help)
  | 'V' => some (.switch .version)
  | _ => none

/-- What the arguments have said so far. -/
structure Given where
  path : Option String := none
  format : Option Format := none
  output : Option String := none
  maxDepth : Option Nat := none
  maxBytes : Option Nat := none
  write : Bool := false
  check : Bool := false
  verbose : Bool := false

/-- Why the arguments ask for no run. -/
inductive Stop where
  | misused
  | help
  | version
  deriving DecidableEq

/-! ## Single options -/

/-- A number below `2 ^ 64`, in decimal digits behind an optional plus sign. -/
def number? (text : String) : Option Nat :=
  let digits := match text.toList with
    | '+' :: r => r
    | s => s
  if digits.isEmpty || !digits.all Char.isDigit then none
  else
    let n := digits.foldl (fun n c => 10 * n + (c.toNat - '0'.toNat)) 0
    if n < Nat.pow 2 64 then some n else none

namespace Given

/-- A value that is valid, for an option that has none yet. -/
def fresh {α : Type} (old new : Option α) : Except Stop (Option α) :=
  if old.isSome || new.isNone then .error .misused else .ok new

/-- A path is not empty. -/
def path? (text : String) : Option String := if text = "" then none else some text

def assign (given : Given) (text : String) : Parameter → Except Stop Given
  | .format => do return { given with format := ← fresh given.format (Format.ofName? text) }
  | .output => do return { given with output := ← fresh given.output (path? text) }
  | .maxDepth => do return { given with maxDepth := ← fresh given.maxDepth (number? text) }
  | .maxBytes => do return { given with maxBytes := ← fresh given.maxBytes (number? text) }

def turnOn (given : Given) : Switch → Except Stop Given
  | .write => if given.write then .error .misused else .ok { given with write := true }
  | .check => if given.check then .error .misused else .ok { given with check := true }
  | .verbose => if given.verbose then .error .misused else .ok { given with verbose := true }
  | .help => .error .help
  | .version => .error .version

def position (given : Given) (text : String) : Except Stop Given := do
  return { given with path := ← fresh given.path (path? text) }

/-- Short options behind one dash.  An option that still waits for its value comes with the
result. -/
def cluster (given : Given) : List Char → Except Stop (Given × Option Parameter)
  | [] => .ok (given, none)
  | c :: r =>
    match Flag.ofShort? c with
    | none => .error .misused
    | some (.switch switch) => do (← given.turnOn switch).cluster r
    | some (.parameter parameter) =>
      match r with
      | [] => .ok (given, some parameter)
      | '=' :: r => do return (← given.assign (String.ofList r) parameter, none)
      | r => do return (← given.assign (String.ofList r) parameter, none)

/-- A long option from behind its dashes. -/
def long (given : Given) (s : List Char) : Except Stop (Given × Option Parameter) :=
  let (name, value) := match Text.cut? '=' s with
    | none => (s, none)
    | some (name, value) => (name, some value)
  match Flag.ofLong? (String.ofList name), value with
  | some (.switch switch), none => do return (← given.turnOn switch, none)
  | some (.parameter parameter), none => .ok (given, some parameter)
  | some (.parameter parameter), some value => do
    return (← given.assign (String.ofList value) parameter, none)
  | _, _ => .error .misused

/-- Read arguments.  `waiting` is the option that the next one gives a value to. -/
def read (given : Given) (waiting : Option Parameter) : List String → Except Stop Given
  | [] => if waiting.isSome then .error .misused else .ok given
  | argument :: rest =>
    match waiting, argument.toList with
    | some _, '-' :: _ :: _ => .error .misused
    | some parameter, _ => do (← given.assign argument parameter).read none rest
    | none, ['-', '-'] => rest.foldlM position given
    | none, '-' :: '-' :: s => do
      let (given, waiting) ← given.long s
      given.read waiting rest
    | none, '-' :: c :: s => do
      let (given, waiting) ← given.cluster (c :: s)
      given.read waiting rest
    | none, _ => do (← given.position argument).read none rest

end Given

/-! ## Settings -/

/-- What a run is asked to do. -/
structure Settings where
  path : String
  format : Format
  output : Option String
  write : Bool
  check : Bool
  maxDepth : Nat
  maxBytes : Nat

def Settings.options (settings : Settings) : ParseOptions :=
  { maxDepth := settings.maxDepth, maxInputBytes := settings.maxBytes }

/-- A limit from its option, else from the environment, else the default. -/
def limit (given : Option Nat) (environment : Option String) (default : Nat) : Except Stop Nat :=
  match given, environment with
  | some n, _ => .ok n
  | none, none => .ok default
  | none, some text => match number? text with
    | some n => .ok n
    | none => .error .misused

/-- The settings that arguments and environment variables make. -/
def settings (arguments : List String) (environment : String → Option String) :
    Except Stop Settings := do
  let given ← Given.read {} none arguments
  let defaults : ParseOptions := {}
  let maxDepth ← limit given.maxDepth (environment "GRADLE2JSON_MAX_DEPTH") defaults.maxDepth
  let maxBytes ← limit given.maxBytes (environment "GRADLE2JSON_MAX_BYTES")
    defaults.maxInputBytes
  if (given.write || given.check) && given.output.isSome || given.write && given.check then
    .error .misused
  else match given.path with
    | none => .error .misused
    | some path => return {
        path
        format := given.format.getD .json
        output := given.output
        write := given.write
        check := given.check
        maxDepth
        maxBytes }

end BuildScript.Command
