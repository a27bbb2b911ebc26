import BuildScript.Document.Tree
import BuildScript.Format.Hex

/-!
# JSON

Documents as JSON text, indented by two spaces for each level.
-/

namespace BuildScript.Json

/-! ## Strings -/

/-- A character inside a string.  Quotes, backslashes and controls below U+0020 are escaped. -/
def escape (c : Char) : List Char :=
  match c with
  | '"' => ['\\', '"']
  | '\\' => ['\\', '\\']
  | '\x08' => ['\\', 'b']
  | '\x0C' => ['\\', 'f']
  | '\n' => ['\\', 'n']
  | '\r' => ['\\', 'r']
  | '\t' => ['\\', 't']
  | c => if c < ' ' then ['\\', 'u'] ++ Hex.padded 'a' 4 c.toNat else [c]

def quoted (s : String) : List Char := '"' :: (s.toList.flatMap escape ++ ['"'])

/-! ## Values -/

/-- A line break and the indentation of a level. -/
def newLine (level : Nat) : List Char := '\n' :: List.replicate (2 * level) ' '

mutual

/-- A value that stands at a level of nesting. -/
def value (level : Nat) : Tree → List Char
  | .text s => quoted s
  | .boolean b => (if b then "true" else "false").toList
  | .array [] => ['[', ']']
  | .array (t :: items) => '[' :: (array (level + 1) (t :: items) ++ newLine level ++ [']'])
  | .map [] => ['{', '}']
  | .map (e :: entries) => '{' :: (map (level + 1) (e :: entries) ++ newLine level ++ ['}'])

/-- The items of an array, each on lines of its own. -/
def array (level : Nat) : List Tree → List Char
  | [] => []
  | [t] => newLine level ++ value level t
  | t :: items => newLine level ++ value level t ++ ',' :: array level items

/-- The entries of an object, each on lines of its own. -/
def map (level : Nat) : List (String × Tree) → List Char
  | [] => []
  | [(k, t)] => newLine level ++ quoted k ++ ':' :: ' ' :: value level t
  | (k, t) :: entries =>
    newLine level ++ quoted k ++ ':' :: ' ' :: value level t ++ ',' :: map level entries

end

def encode (doc : Document) : String := String.ofList (value 0 doc.tree)

end BuildScript.Json
