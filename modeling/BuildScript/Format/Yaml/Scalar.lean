import BuildScript.Format.Yaml.Plain
import BuildScript.Format.Hex

/-!
# Scalars

A text is written in the plainest of four styles that can hold it and reads back as a text.
-/

namespace BuildScript.Yaml

/-! ## Characters -/

def isBreak (c : Char) : Bool :=
  c == '\n' || c == '\r' || c == '\u0085' || c == '\u2028' || c == '\u2029'

def isSpaceOrBreak (c : Char) : Bool := c == ' ' || isBreak c

/-- A character that ends a word. -/
def isSeparator (c : Char) : Bool := isSpaceOrBreak c || c == '\t' || c == '\x00'

/-- A character that only an escape can show. -/
def isSpecial (c : Char) : Bool :=
  let n := c.toNat
  !(c == '\n' || (0x20 ≤ n && n ≤ 0x7E) || (0xA0 ≤ n && n ≤ 0xFFFD && n != 0xFEFF) || 0x10000 ≤ n)

/-- Some two characters in a row satisfy the predicate. -/
def anyPair (p : Char → Char → Bool) : List Char → Bool
  | c :: d :: r => p c d || anyPair p (d :: r)
  | _ => false

/-! ## Styles -/

inductive Style where
  | plain
  | single
  | double
  | literal
  deriving DecidableEq

/-- The text begins with a mark that has a meaning of its own at the start of a scalar. -/
def startsWithMark : List Char → Bool
  | '-' :: '-' :: '-' :: _ => true
  | '.' :: '.' :: '.' :: _ => true
  | c :: r =>
    "#,[]&*!|>'\"%@`".toList.contains c || c == '{' || c == '}' ||
      ("?:-".toList.contains c && r.head?.all isSeparator)
  | [] => false

/-- The text holds a mark that ends a plain scalar. -/
def hasInnerMark (s : List Char) : Bool :=
  anyPair (fun c d => (c == ':' && isSeparator d) || (isSeparator c && d == '#')) s ||
    s.getLast? == some ':'

def fitsPlain (s : List Char) : Bool :=
  !(startsWithMark s || hasInnerMark s || s.any isSpecial || s.any isBreak ||
    s.head? == some ' ' || s.getLast? == some ' ')

def fitsSingle (s : List Char) : Bool :=
  !(s.any isSpecial || anyPair (fun c d => (isBreak c && d == ' ') || (c == ' ' && isBreak d)) s)

def fitsLiteral (s : List Char) : Bool :=
  !(s.any isSpecial || anyPair (fun c d => c == ' ' && isBreak d) s || s.getLast? == some ' ')

/-- The style of a text.  Text of several lines is written line by line if it can be. -/
def style (s : List Char) : Style :=
  if s.contains '\n' then if fitsLiteral s then .literal else .double
  else if fitsPlain s && !isNoText s then .plain
  else if fitsSingle s then .single
  else .double

/-! ## Writing -/

def indent (n : Nat) : List Char := List.replicate n ' '

/-- Characters with an indentation after breaks.  `atStart` says that a break came just before. -/
def indented (n : Nat) (write : Char → List Char) (atStart : Bool) : List Char → List Char
  | [] => []
  | c :: r =>
    if isBreak c then c :: indented n write true r
    else (if atStart then indent n else []) ++ write c ++ indented n write false r

def single (n : Nat) (s : List Char) : List Char :=
  let close := if s.getLast?.any isBreak then indent n else []
  '\'' :: (indented n (fun c => if c == '\'' then ['\'', '\''] else [c]) false s ++ close ++ ['\''])

/-- A character in double quotes. -/
def escape (c : Char) : List Char :=
  match c with
  | '\x00' => ['\\', '0']
  | '\x07' => ['\\', 'a']
  | '\x08' => ['\\', 'b']
  | '\t' => ['\\', 't']
  | '\n' => ['\\', 'n']
  | '\x0B' => ['\\', 'v']
  | '\x0C' => ['\\', 'f']
  | '\r' => ['\\', 'r']
  | '\x1B' => ['\\', 'e']
  | '"' => ['\\', '"']
  | '\\' => ['\\', '\\']
  | '\u0085' => ['\\', 'N']
  | '\u2028' => ['\\', 'L']
  | '\u2029' => ['\\', 'P']
  | c =>
    if !isSpecial c then [c]
    else if c.toNat < 0x100 then ['\\', 'x'] ++ Hex.padded 'A' 2 c.toNat
    else if c.toNat < 0x10000 then ['\\', 'u'] ++ Hex.padded 'A' 4 c.toNat
    else ['\\', 'U'] ++ Hex.padded 'A' 8 c.toNat

def double (s : List Char) : List Char := '"' :: (s.flatMap escape ++ ['"'])

/-- The header of a literal block: whether its indentation has to be said, and what becomes of the
breaks at its end. -/
def literalHeader (s : List Char) : List Char :=
  let indentation := if s.head?.any isSpaceOrBreak then ['2'] else []
  let chomping := match s.reverse with
    | [] => ['-']
    | c :: r =>
      if !isBreak c then ['-']
      else if r.head?.all isBreak then ['+']
      else []
  '|' :: (indentation ++ chomping)

def literal (n : Nat) (s : List Char) : List Char :=
  literalHeader s ++ '\n' :: indented n (fun c => [c]) true s

/-- A text at an indentation, with the end of its last line. -/
def scalar (n : Nat) (text : String) : List Char :=
  let s := text.toList
  match style s with
  | .plain => s ++ ['\n']
  | .single => single n s ++ ['\n']
  | .double => double s ++ ['\n']
  | .literal => literal n s ++ if s.getLast?.any isBreak then [] else ['\n']

end BuildScript.Yaml
