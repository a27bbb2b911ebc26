import BuildScript.Proofs.Reading

/-!
# The line grammar of scripts

Well-formed scripts as data: lines with settings, declarations, lists, bare keys and blocks, with
blank lines and comments between them.  A script has a text, which is how it is written, and a
meaning, which is the document that it stands for.
-/

namespace BuildScript.Grammar

open Text Unicode

/-! ## Tokens -/

/-- A text all of whose characters are of one class. -/
abbrev Run (isMember : Char → Bool) := {s : List Char // ∀ c ∈ s, isMember c = true}

/-- The empty text is of every class. -/
def Run.none {isMember : Char → Bool} : Run isMember :=
  ⟨[], fun _ member => absurd member List.not_mem_nil⟩

/-- Spaces and tabs at the start of a line. -/
abbrev Indent := Run isIndent

theorem isIndent_of_mem_space : ∀ c ∈ [' '], isIndent c = true := by decide

/-- Delimiters behind a key, perhaps none. -/
abbrev Separators := Run isDelimiter

theorem isDelimiter_of_mem_space : ∀ c ∈ [' '], isDelimiter c = true := by decide

theorem space_ne_nil : [' '] ≠ [] := List.cons_ne_nil _ _

/-- What follows a `]` or a `}` on its line. -/
abbrev Tail := Run fun c => !endsValue c

/-- The text of a `//` comment. -/
abbrev CommentText := Run fun c => !isLineBreak c

/-- The text between the brackets of a list. -/
abbrev ListText := Run (· != ']')

/-- The delimiters between a key and its value. -/
structure Separator where
  chars : List Char
  nonempty : chars ≠ []
  delimiters : ∀ c ∈ chars, isDelimiter c = true

/-- The blanks between two words. -/
structure Gap where
  chars : List Char
  nonempty : chars ≠ []
  blanks : ∀ c ∈ chars, isIndent c = true

/-- The text of a block comment, which its first close ends. -/
structure CommentBody where
  chars : List Char
  unclosed : ¬ ['*', '/'] <:+: chars

/-- Words that begin a construct of their own. -/
def keywords : List String := ["if", "else", "def"]

structure Key where
  chars : List Char
  nonempty : chars ≠ []
  inWord : ∀ c ∈ chars, endsWord c = false ∧ c ≠ '('
  notKeyword : String.ofList chars ∉ keywords
  notLineComment : ¬ ['/', '/'] <+: chars
  notBlockComment : ¬ ['/', '*'] <+: chars

def Key.name (key : Key) : String := String.ofList key.chars

/-- A key whose block is read as a nested script. -/
structure BlockKey extends Key where
  notDependencies : String.ofList chars ≠ "dependencies"
  notRepositories : String.ofList chars ≠ "repositories"

structure ValueText where
  chars : List Char
  inValue : ∀ c ∈ chars, endsValue c = false
  notBlank : allBlank chars = false
  start : ∀ c ∈ chars.head?, isDelimiter c = false ∧ c ≠ '['

/-- A word of a declaration, such as a type or the name that is declared. -/
structure Word where
  chars : List Char
  nonempty : chars ≠ []
  inWord : ∀ c ∈ chars, isBlank c = false ∧ c ∉ ['=', '(', '{', '}']

def Word.name (word : Word) : String := String.ofList word.chars

inductive LineBreak where
  | lineFeed
  | carriageReturn
  | both

def LineBreak.text : LineBreak → List Char
  | lineFeed => ['\n']
  | carriageReturn => ['\r']
  | both => ['\r', '\n']

/-! ## Lines -/

mutual

/-- A line without its line break.  The index tells whether it ends in a `//` comment. -/
inductive ScriptLine : Bool → Type where
  | blank (indent : Indent) : ScriptLine false
  | comment (indent : Indent) (text : CommentText) : ScriptLine true
  | afterComment {commented : Bool} (indent : Indent) (body : CommentBody)
      (line : ScriptLine commented) : ScriptLine commented
  | setting (indent : Indent) (key : Key) (separator : Separator) (value : ValueText) :
      ScriptLine false
  | declaration (indent : Indent) (gap : Gap) (words : List (Word × Gap)) (name : Word)
      (blanks : Indent) (separators : Separators) (value : ValueText) : ScriptLine false
  | list (indent : Indent) (key : Key) (separator : Separator) (items : ListText)
      (tail : Tail) : ScriptLine false
  | bare (indent : Indent) (key : Key) (separators : Separators) : ScriptLine false
  /-- The last line of the body may share its line with the `}`, unless it is a `//` comment. -/
  | block (indent : Indent) (key : BlockKey) (separators : Separators) (body : Script false)
      (tail : Tail) : ScriptLine false

/-- Lines with line breaks between them.  The index tells whether the last line ends in a `//`
comment. -/
inductive Script : Bool → Type where
  | last {commented : Bool} (line : ScriptLine commented) : Script commented
  | cons {before commented : Bool} (line : ScriptLine before) (lineBreak : LineBreak)
      (more : Script commented) : Script commented

end

variable {commented : Bool}

/-! ## Text -/

def wordsText : List (Word × Gap) → List Char
  | [] => []
  | (word, gap) :: words => word.chars ++ (gap.chars ++ wordsText words)

mutual

def ScriptLine.text {commented : Bool} : ScriptLine commented → List Char
  | .blank indent => indent.1
  | .comment indent text => indent.1 ++ '/' :: '/' :: text.1
  | .afterComment indent body line =>
    indent.1 ++ '/' :: '*' :: (body.chars ++ '*' :: '/' :: line.text)
  | .setting indent key separator value =>
    indent.1 ++ (key.chars ++ (separator.chars ++ value.chars))
  | .declaration indent gap words name blanks separators value =>
    indent.1 ++ ("def".toList ++ (gap.chars ++ (wordsText words ++ (name.chars ++ (blanks.1 ++
      '=' :: (separators.1 ++ value.chars))))))
  | .list indent key separator items tail =>
    indent.1 ++ (key.chars ++ (separator.chars ++ '[' :: (items.1 ++ ']' :: tail.1)))
  | .bare indent key separators => indent.1 ++ (key.chars ++ separators.1)
  | .block indent key separators body tail =>
    indent.1 ++ (key.chars ++ (separators.1 ++ '{' :: (body.text ++ '}' :: tail.1)))

def Script.text {commented : Bool} : Script commented → List Char
  | .last line => line.text
  | .cons line lineBreak more => line.text ++ (lineBreak.text ++ more.text)

end

/-! ## Meaning -/

/-- The items of a list: the texts between its commas, without blanks and quotes around them. -/
def itemValues (items : List Char) : List Value :=
  if allBlank items then []
  else (splitOn ',' items).map fun item => .text (String.ofList (unquote (trim item)))

mutual

/-- The document with what a line says. -/
def ScriptLine.meaning {commented : Bool} (doc : Document) : ScriptLine commented → Document
  | .blank _ => doc
  | .comment _ _ => doc
  | .afterComment _ _ line => line.meaning doc
  | .setting _ key _ value => doc.add key.name (classify value.chars)
  | .declaration _ _ _ name _ _ value => doc.add name.name (classify value.chars)
  | .list _ key _ items _ => doc.add key.name (.sequence (itemValues items.1))
  | .bare _ _ _ => doc
  | .block _ key _ body _ => doc.joinBlock key.name (.document (body.meaning []))

/-- The document with what lines say, one after the other. -/
def Script.meaning {commented : Bool} (doc : Document) : Script commented → Document
  | .last line => line.meaning doc
  | .cons line _ more => more.meaning (line.meaning doc)

end

mutual

/-- How many blocks are nested in each other at most. -/
def ScriptLine.depth {commented : Bool} : ScriptLine commented → Nat
  | .block _ _ _ body _ => body.depth + 1
  | .afterComment _ _ line => line.depth
  | _ => 0

def Script.depth {commented : Bool} : Script commented → Nat
  | .last line => line.depth
  | .cons line _ more => max line.depth more.depth

end

end BuildScript.Grammar
