import BuildScript.Format.Toml.Table
import BuildScript.Text
import BuildScript.Format.Hex

/-!
# TOML

Documents as TOML.  A table is written with its values first, in order, and then with its tables,
depth first, each under its header.
-/

namespace BuildScript.Toml

/-! ## Strings -/

/-- A control that no string holds as it is. -/
def isControl (c : Char) : Bool := (c < ' ' && c != '\t' && c != '\n') || c == '\x7F'

/-- The length of the longest run of a character. -/
def longestRun (c : Char) (s : List Char) : Nat :=
  go 0 s
where
  go (run : Nat) : List Char → Nat
    | [] => run
    | d :: r => if d == c then go (run + 1) r else max run (go 0 r)

/-- A character in a string with escapes. -/
def escape (c : Char) : List Char :=
  match c with
  | '\x08' => ['\\', 'b']
  | '\t' => ['\\', 't']
  | '\n' => ['\\', 'n']
  | '\x0C' => ['\\', 'f']
  | '\r' => ['\\', 'r']
  | '"' => ['\\', '"']
  | '\\' => ['\\', '\\']
  | c => if c < ' ' || c == '\x7F' then ['\\', 'u'] ++ Hex.padded 'A' 4 c.toNat else [c]

/-- The content of a multi-line string with escapes.  Line breaks stay, and of quotes in a row only
every third one is escaped; `run` quotes stand before the text. -/
def escapeLines (run : Nat) : List Char → List Char
  | [] => []
  | c :: r =>
    if c == '"' then
      if run == 2 then '\\' :: '"' :: escapeLines 0 r else '"' :: escapeLines (run + 1) r
    else if c == '\n' then c :: escapeLines 0 r
    else escape c ++ escapeLines 0 r

inductive Style where
  | basic
  | literal
  | basicLines
  | literalLines

/-- The first style that shows the text without escapes, if there is one. -/
def style (s : List Char) : Style :=
  if s.any isControl then if s.contains '\n' then .basicLines else .basic
  else if !(s.contains '\\' || s.contains '"' || s.contains '\n') then .basic
  else if !(s.contains '\'' || s.contains '\n') then .literal
  else if !s.contains '\\' && longestRun '"' s ≤ 2 then .basicLines
  else if longestRun '\'' s ≤ 2 then .literalLines
  else if s.contains '\n' then .basicLines
  else .basic

/-- The line break that follows the opening quotes of a text of more than one line. -/
def opening (s : List Char) : List Char := if s.contains '\n' then ['\n'] else []

def quotedIn (style : Style) (s : List Char) : List Char :=
  match style with
  | .basic => '"' :: (s.flatMap escape ++ ['"'])
  | .literal => '\'' :: (s ++ ['\''])
  | .basicLines => ['"', '"', '"'] ++ opening s ++ escapeLines 0 s ++ ['"', '"', '"']
  | .literalLines => ['\'', '\'', '\''] ++ opening s ++ s ++ ['\'', '\'', '\'']

def quoted (s : String) : List Char := quotedIn (style s.toList) s.toList

/-! ## Keys -/

def isBareKeyChar (c : Char) : Bool := c.isAlphanum || c == '_' || c == '-'

/-- A key: bare if it can be, else in one line of quotes. -/
def key (k : String) : List Char :=
  let s := k.toList
  if !s.isEmpty && s.all isBareKeyChar then s
  else if s.any (fun c => isControl c || c == '\n') || !(s.contains '\\' || s.contains '"') ||
      s.contains '\'' then quotedIn .basic s
  else quotedIn .literal s

/-! ## Values -/

mutual

/-- A value in one piece. -/
def value : Inline → List Char
  | .text s => quoted s
  | .boolean b => (if b then "true" else "false").toList
  | .array items => '[' :: (Text.joined [',', ' '] (array items) ++ [']'])
  | .table [] => ['{', '}']
  | .table (e :: entries) =>
    '{' :: ' ' :: (Text.joined [',', ' '] (inlineTable (e :: entries)) ++ [' ', '}'])

def array : List Inline → List (List Char)
  | [] => []
  | v :: items => value v :: array items

def inlineTable : List (String × Inline) → List (List Char)
  | [] => []
  | (k, v) :: entries => (key k ++ " = ".toList ++ value v) :: inlineTable entries

end

/-! ## Tables -/

/-- The lines of the values of a table. -/
def settings : Table → List (List Char)
  | [] => []
  | (_, .table _) :: items => settings items
  | (k, .value v) :: items => (key k ++ " = ".toList ++ value v) :: settings items

def header (path : List String) : List Char :=
  '[' :: (Text.joined ['.'] (path.map key) ++ [']'])

/-- The groups of lines of the tables below the one at a path. -/
def tables (path : List String) : Table → List (List (List Char))
  | [] => []
  | (k, .table inner) :: items =>
    let here := path ++ [k]
    ((header here :: settings inner) :: tables here inner) ++ tables path items
  | (_, .value _) :: items => tables path items

/-- Groups of lines with an empty line between them. -/
def paragraphs (groups : List (List (List Char))) : List Char :=
  Text.joined ['\n'] (groups.map fun lines => lines.flatMap (· ++ ['\n']))

/-- A whole text.  Without values it begins with the first header. -/
def write (table : Table) : List Char :=
  let root := if (settings table).isEmpty then [] else [settings table]
  paragraphs (root ++ tables [] table)

def encode (doc : Document) : String := String.ofList (write (Table.ofDocument doc))

end BuildScript.Toml
