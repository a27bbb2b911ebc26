/-!
# Failures

Nothing in a script is an error by itself.  Reading fails when a file cannot be read or a limit is
exceeded.
-/

namespace BuildScript

/-- Why a file cannot be read or written. -/
inductive FileError where
  | notFound
  | notDirectory
  | isDirectory
  | nameTooLong
  | notText
  deriving DecidableEq

def FileError.message : FileError → String
  | notFound => "No such file or directory (os error 2)"
  | notDirectory => "Not a directory (os error 20)"
  | isDirectory => "Is a directory (os error 21)"
  | nameTooLong => "File name too long (os error 36)"
  | notText => "stream did not contain valid UTF-8"

/-- A place in a text; lines and columns are counted from one. -/
structure Position where
  line : Nat
  column : Nat
  deriving DecidableEq

/-- The position after a text.  Only a line feed begins a new line. -/
def Position.after (s : List Char) : Position :=
  ⟨1 + s.count '\n', 1 + (s.reverse.takeWhile (· != '\n')).length⟩

inductive ParseError where
  | unreadable (path : String) (reason : FileError)
  | nestedTooDeep (limit : Nat) (position : Position) (filename : Option String)
  | inputTooLarge (size limit : Nat)
  deriving DecidableEq

namespace ParseError

def message : ParseError → String
  | unreadable path reason => "Cannot read " ++ path ++ ": " ++ reason.message
  | nestedTooDeep limit position filename =>
    "Blocks nested deeper than " ++ toString limit ++ " levels at " ++ toString position.line ++
      ":" ++ toString position.column ++
      match filename with
      | none => ""
      | some name => " of <" ++ name ++ ">"
  | inputTooLarge size limit =>
    "Input of " ++ toString size ++ " bytes exceeds the " ++ toString limit ++ " byte budget"

/-- The reason behind a failure, if it has one of its own. -/
def cause? : ParseError → Option FileError
  | unreadable _ reason => some reason
  | _ => none

end ParseError

end BuildScript
