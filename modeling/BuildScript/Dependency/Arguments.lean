import BuildScript.Dependency.Statement
import BuildScript.Document

/-!
# Arguments of a declaration

Splitting the notation of a dependency at commas, parentheses and braces that stand outside quotes
and brackets.
-/

namespace BuildScript

open Text

/-- The pieces between the commas outside quotes and brackets. -/
def argumentPieces (depth : Nat) (quote : Option Char) : List Char → List (List Char)
  | [] => [[]]
  | c :: r =>
    if !inLiteral quote c && c == ',' && depth == 0 then [] :: argumentPieces 0 none r
    else
      let depth :=
        if inLiteral quote c then depth
        else if c == '(' || c == '[' || c == '{' then depth + 1
        else if c == ')' || c == ']' || c == '}' then depth - 1
        else depth
      match argumentPieces depth (quoteAfter quote c) r with
      | [] => [[c]]
      | piece :: pieces => (c :: piece) :: pieces

/-- The arguments of a list, without the blanks around them.  A blank text has none. -/
def splitArguments (s : List Char) : List (List Char) :=
  if allBlank s then [] else (argumentPieces 0 none s).map trim

/-- The parenthesis that opens the text is closed by its last character. -/
def closesAtEnd (depth : Nat) (quote : Option Char) : List Char → Bool
  | [] => false
  | c :: r =>
    if inLiteral quote c then closesAtEnd depth (quoteAfter quote c) r
    else if c == '(' then closesAtEnd (depth + 1) none r
    else if c == ')' then if depth ≤ 1 then r.isEmpty else closesAtEnd (depth - 1) none r
    else closesAtEnd depth none r

/-- One pair of parentheses around the whole text is removed. -/
def stripParentheses : List Char → List Char
  | '(' :: r => if closesAtEnd 1 none r then r.dropLast else '(' :: r
  | s => s

/-- The text before the first `{` outside quotes and brackets, and the block behind it, which loses
its last `}`. -/
def splitBlock (depth : Nat) (quote : Option Char) :
    List Char → List Char × Option (List Char)
  | [] => ([], none)
  | c :: r =>
    if !inLiteral quote c && c == '{' && depth == 0 then
      ([], some (if r.getLast? == some '}' then r.dropLast else r))
    else
      let depth :=
        if inLiteral quote c then depth
        else if c == '(' || c == '[' then depth + 1
        else if c == ')' || c == ']' then depth - 1
        else depth
      let (before, block) := splitBlock depth (quoteAfter quote c) r
      (c :: before, block)

/-! ## Named arguments -/

def isIdentifierStart (c : Char) : Bool := c.isAlpha || c == '_'

/-- An ASCII letter or underscore, then ASCII letters, digits and underscores. -/
def isIdentifier : List Char → Bool
  | [] => false
  | c :: r => isIdentifierStart c && r.all fun c => c.isAlphanum || c == '_'

/-- The name and the text of an argument of the form `name: value`. -/
def namedArgument? (argument : List Char) : Option (String × String) :=
  match cut? ':' argument with
  | none => none
  | some (name, value) =>
    if isIdentifier (trim name) then
      some (String.ofList (trim name), String.ofList (unquote (trim value)))
    else none

/-- The named arguments of a notation; others are passed over. -/
def namedArguments (s : List Char) : Attributes :=
  Attributes.ofPairs ((splitArguments s).filterMap namedArgument?)

end BuildScript
