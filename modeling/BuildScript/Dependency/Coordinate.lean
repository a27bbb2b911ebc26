import BuildScript.Dependency.Arguments

/-!
# Coordinates

What a notation says about the module that is depended on.  The forms are tried in a fixed order:
a list of `group:name:version` texts, one such text anywhere, a project reference, named arguments,
and at last any text as a name.
-/

namespace BuildScript

open Text

structure Coordinate where
  group : String
  name : String
  version : String
  deriving DecidableEq

def isPartChar (c : Char) : Bool := Unicode.isWord c || c == '.' || c == '-'

/-- A version may also be a range or hold an interpolation. -/
def isVersionChar (c : Char) : Bool :=
  Unicode.isWord c ||
    ['[', ']', '(', ')', '{', '}', '$', ',', '+', '.', '-'].contains c

/-! ## The form `group:name:version` -/

/-- The first run of characters of a class, if the text begins with one, and the text after it. -/
def run? (isMember : Char → Bool) (s : List Char) : Option (List Char × List Char) :=
  match s.takeWhile isMember with
  | [] => none
  | run => some (run, s.dropWhile isMember)

/-- A run of characters of a part and the text after the colon behind it. -/
def part? (s : List Char) : Option (List Char × List Char) :=
  match run? isPartChar s with
  | some (part, ':' :: rest) => some (part, rest)
  | _ => none

/-- The coordinate that begins at the start of the text.  Each part is as long as it can be. -/
def coordinateHere? (s : List Char) : Option Coordinate := do
  let (group, s) ← part? s
  let (name, s) ← part? s
  let (version, _) ← run? isVersionChar s
  some ⟨String.ofList group, String.ofList name, String.ofList version⟩

/-- The coordinate that begins first in the text. -/
def findCoordinate? : List Char → Option Coordinate
  | [] => none
  | c :: r => (coordinateHere? (c :: r)).or (findCoordinate? r)

/-- The coordinate in a notation that may be quoted. -/
def quotedCoordinate? (s : List Char) : Option Coordinate :=
  findCoordinate? (unquote (trim s))

/-! ## Project references -/

/-- The text from the first `project(` on. -/
def fromProject? : List Char → Option (List Char)
  | [] => none
  | c :: r =>
    if (after? "project(".toList (c :: r)).isSome then some (c :: r) else fromProject? r

/-- The text of a call through its first `)`, or the whole text `s` if it has none. -/
def callText (s call : List Char) : List Char :=
  if call.contains ')' then call.takeWhile (· != ')') ++ [')'] else s

/-! ## Notations -/

def coordinateOfName (name : List Char) : Coordinate := ⟨"", String.ofList name, ""⟩

/-- The coordinate of named arguments that hold a name. -/
def namedCoordinate? (s : List Char) : Option Coordinate :=
  let arguments := namedArguments s
  (arguments.lookup "name").map fun name =>
    ⟨(arguments.lookup "group").getD "", name, (arguments.lookup "version").getD ""⟩

/-- The coordinates of a notation. -/
def coordinates (s : List Char) : List Coordinate :=
  match (splitArguments s).mapM quotedCoordinate? with
  | some (first :: others) => first :: others
  | _ =>
    match quotedCoordinate? s with
    | some coordinate => [coordinate]
    | none =>
      match fromProject? s with
      | some call => [coordinateOfName (callText s call)]
      | none => [(namedCoordinate? s).getD (coordinateOfName (unquote s))]

end BuildScript
