import BuildScript.Dependency.Coordinate

/-!
# Declarations

A statement of a dependencies block is a keyword, a notation and perhaps a block of `exclude`
lines.  It declares one dependency for each coordinate of its notation.
-/

namespace BuildScript

open Text

def isKeywordChar (c : Char) : Bool := c.isAlphanum || c == '_' || c == '-'

/-- Words that begin a control statement and not a declaration. -/
def controlKeywords : List String := ["if", "else", "def", "for"]

/-- The rule of an `exclude` line. -/
def excludeRule? (line : List Char) : Option Attributes :=
  match after? "exclude".toList (trim line) with
  | none => none
  | some rest =>
    if rest.head?.any fun c => Unicode.isAlphanumeric c || c == '_' then none
    else
      match namedArguments (stripParentheses (trim rest)) with
      | [] => none
      | rule => some rule

def excludeRules (block : List Char) : List Attributes := (lines block).filterMap excludeRule?

/-- The dependencies that a statement declares. -/
def declarations (statement : List Char) : List Dependency :=
  let kind := String.ofList (statement.takeWhile isKeywordChar)
  let (arguments, block) := splitBlock 0 none (statement.dropWhile isKeywordChar)
  let spec := trim (stripParentheses (trim arguments))
  if kind = "" || controlKeywords.contains kind || spec.isEmpty then []
  else
    let excludes := (block.map excludeRules).getD []
    (coordinates spec).map fun c => ⟨c.group, c.name, c.version, kind, excludes⟩

/-- The dependencies of a block from behind its `{`, and the text after its `}`. -/
def blockDependencies (s : List Char) : List Dependency × List Char :=
  let (statements, rest) := blockStatements s
  (statements.flatMap declarations, rest)

theorem blockDependencies_suffix (s : List Char) : (blockDependencies s).2 <:+ s :=
  blockStatements_suffix s

end BuildScript
