import BuildScript.Proofs.Grammar.Syntax

/-!
# Bodies of plain code

Bodies in braces that may stand behind the key of a block as well as behind the test of a
conditional: settings without quotes and brackets, blank lines, comments with any text, and nested
blocks of the same kind.
-/

namespace BuildScript.Bodies

open Text Grammar

/-! ## Lines -/

/-- A quote, or a bracket that is no brace. -/
def isSpecial (c : Char) : Bool := isQuote c || c ∈ ['(', ')', '[', ']']

/-- A text on one line without quotes, brackets and braces. -/
abbrev PlainText := Run fun c => !(endsValue c || isSpecial c)

structure PlainKey extends Key where
  plain : ∀ c ∈ chars, isSpecial c = false

mutual

/-- A line without its line break.  The index tells whether it ends in a `//` comment. -/
inductive BodyLine : Bool → Type where
  | blank (indent : Indent) : BodyLine false
  | comment (indent : Indent) (text : CommentText) : BodyLine true
  | afterComment {commented : Bool} (indent : Indent) (body : CommentBody)
      (line : BodyLine commented) : BodyLine commented
  | setting (indent : Indent) (key : PlainKey) (separator : Separator) (value : PlainText) :
      BodyLine false
  | block (indent : Indent) (key : PlainKey) (separators : Separators) (body : Body false)
      (tail : PlainText) : BodyLine false

/-- Lines with line breaks between them, the first of which stands right behind a `{`.  The index
tells whether the last line ends in a `//` comment. -/
inductive Body : Bool → Type where
  | last {commented : Bool} (line : BodyLine commented) : Body commented
  | cons {before commented : Bool} (line : BodyLine before) (lineBreak : LineBreak)
      (more : Body commented) : Body commented

end

mutual

def BodyLine.text {commented : Bool} : BodyLine commented → List Char
  | .blank indent => indent.1
  | .comment indent text => indent.1 ++ '/' :: '/' :: text.1
  | .afterComment indent body line =>
    indent.1 ++ '/' :: '*' :: (body.chars ++ '*' :: '/' :: line.text)
  | .setting indent key separator value =>
    indent.1 ++ (key.chars ++ (separator.chars ++ value.1))
  | .block indent key separators body tail =>
    indent.1 ++ (key.chars ++ (separators.1 ++ '{' :: (body.text ++ '}' :: tail.1)))

def Body.text {commented : Bool} : Body commented → List Char
  | .last line => line.text
  | .cons line lineBreak more => line.text ++ (lineBreak.text ++ more.text)

end

/-! ## Depth -/

mutual

/-- How many blocks the reader opens in each other at most.  The body of a dependencies block is a
list of statements, in which it opens none. -/
def BodyLine.depth {commented : Bool} : BodyLine commented → Nat
  | .blank _ => 0
  | .comment _ _ => 0
  | .afterComment _ _ line => line.depth
  | .setting _ _ _ _ => 0
  | .block _ key _ body _ => if key.name = "dependencies" then 1 else body.depth + 1

def Body.depth {commented : Bool} : Body commented → Nat
  | .last line => line.depth
  | .cons line _ more => max line.depth more.depth

end

/-! ## Comments behind braces -/

/-- A comment begins the line. -/
def BodyLine.startsWithComment {commented : Bool} : BodyLine commented → Bool
  | .comment _ _ => true
  | .afterComment _ _ _ => true
  | _ => false

/-- A comment stands right behind the `{` before the body. -/
def Body.startsWithComment {commented : Bool} : Body commented → Bool
  | .last line => line.startsWithComment
  | .cons line _ _ => line.startsWithComment

mutual

/-- A comment stands right behind a `{` of the line. -/
def BodyLine.hasCommentBehindBrace {commented : Bool} : BodyLine commented → Bool
  | .blank _ => false
  | .comment _ _ => false
  | .afterComment _ _ line => line.hasCommentBehindBrace
  | .setting _ _ _ _ => false
  | .block _ _ _ body _ => body.startsWithComment || body.hasCommentBehindBrace

/-- A comment stands right behind a `{` in the body. -/
def Body.hasCommentBehindBrace {commented : Bool} : Body commented → Bool
  | .last line => line.hasCommentBehindBrace
  | .cons line _ more => line.hasCommentBehindBrace || more.hasCommentBehindBrace

end

mutual

/-- In no dependencies block of the line a comment stands right behind a `{` of a statement. -/
def BodyLine.statementsArePlain {commented : Bool} : BodyLine commented → Bool
  | .blank _ => true
  | .comment _ _ => true
  | .afterComment _ _ line => line.statementsArePlain
  | .setting _ _ _ _ => true
  | .block _ key _ body _ =>
    if key.name = "dependencies" then !body.hasCommentBehindBrace else body.statementsArePlain

/-- In no dependencies block of the body a comment stands right behind a `{` of a statement. -/
def Body.statementsArePlain {commented : Bool} : Body commented → Bool
  | .last line => line.statementsArePlain
  | .cons line _ more => line.statementsArePlain && more.statementsArePlain

end

end BuildScript.Bodies
