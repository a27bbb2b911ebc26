import BuildScript.Proofs.Grammar.Syntax

/-!
# Scripts of dependencies blocks

The declarations of a `dependencies` block as data, in each of the forms in which they are written,
and scripts that consist of such blocks with blank lines and comments around them.  A script has a
text and a list of the dependencies that it declares.
-/

namespace BuildScript.Dependencies

open Text Grammar

/-! ## Tokens -/

/-- Either quote character. -/
abbrev Quote := {c : Char // isQuote c = true}

/-- The keyword of a declaration, such as `implementation`. -/
structure Kind where
  chars : List Char
  nonempty : chars ≠ []
  inKind : ∀ c ∈ chars, isKeywordChar c = true
  notControl : String.ofList chars ∉ controlKeywords

def Kind.name (kind : Kind) : String := String.ofList kind.chars

/-- A text `group:name:version`. -/
structure CoordinateText where
  group : Run isPartChar
  name : Run isPartChar
  version : Run isVersionChar
  grouped : group.1 ≠ []
  named : name.1 ≠ []
  versioned : version.1 ≠ []

def CoordinateText.chars (text : CoordinateText) : List Char :=
  text.group.1 ++ ':' :: (text.name.1 ++ ':' :: text.version.1)

def CoordinateText.coordinate (text : CoordinateText) : Coordinate :=
  ⟨String.ofList text.group.1, String.ofList text.name.1, String.ofList text.version.1⟩

/-- A coordinate between quotes. -/
structure Quoted where
  quote : Quote
  content : CoordinateText

def Quoted.text (quoted : Quoted) : List Char :=
  quoted.quote.1 :: (quoted.content.chars ++ [quoted.quote.1])

/-- What stands between two coordinates: a comma, and perhaps a line break with the indentation of
the next line. -/
structure Comma where
  blanks : Indent
  lineBreak : Option (LineBreak × Indent)

def Comma.text (comma : Comma) : List Char :=
  ',' :: (comma.blanks.1 ++ match comma.lineBreak with
    | none => []
    | some (lineBreak, indent) => lineBreak.text ++ indent.1)

/-! ## Attributes -/

/-- An attribute `name: 'value'`. -/
structure Attribute where
  name : List Char
  value : List Char
  identifier : isIdentifier name = true
  inLiteral : ∀ c ∈ value, c ≠ '\'' ∧ isLineBreak c = false

def Attribute.text (named : Attribute) : List Char :=
  named.name ++ ':' :: ' ' :: '\'' :: (named.value ++ ['\''])

def Attribute.pair (named : Attribute) : String × String :=
  (String.ofList named.name, String.ofList named.value)

/-- Attributes with `, ` between them. -/
def attributesText (first : Attribute) (others : List Attribute) : List Char :=
  first.text ++ others.flatMap fun named => ',' :: ' ' :: named.text

/-- A line `exclude a: 'x', b: 'y'` with the line break that ends it. -/
structure ExcludeLine where
  indent : Indent
  gap : Gap
  first : Attribute
  others : List Attribute
  lineBreak : LineBreak
  distinct : ((first :: others).map Attribute.name).Nodup

def ExcludeLine.text (line : ExcludeLine) : List Char :=
  line.indent.1 ++ ("exclude".toList ++ (line.gap.chars ++
    (attributesText line.first line.others ++ line.lineBreak.text)))

/-- The attributes of the line in the order of their names. -/
def ExcludeLine.rule (line : ExcludeLine) : Attributes :=
  ((line.first :: line.others).map Attribute.pair).mergeSort fun a b => a.1 ≤ b.1

/-! ## Statements -/

inductive Statement where
  /-- `KIND 'g:n:v', 'g:n:v'`, with one coordinate or more. -/
  | listed (kind : Kind) (gap : Gap) (first : Quoted) (others : List (Comma × Quoted))
  /-- `KIND('g:n:v')` -/
  | call (kind : Kind) (coordinate : Quoted)
  /-- `KIND group: 'g', name: 'n', version: 'v'`, where only the name has to stand. -/
  | named (kind : Kind) (gap : Gap) (group : Option (Run isPartChar)) (name : Run isPartChar)
      (version : Option (Run isPartChar))
  /-- `KIND('g:n:v') {`, one `exclude` line or more, and a line `}`. -/
  | excluding (kind : Kind) (coordinate : Quoted) (blanks : Indent) (lineBreak : LineBreak)
      (first : ExcludeLine) (others : List ExcludeLine) (indent : Indent)

theorem isVersionChar_of_isPartChar {c : Char} (h : isPartChar c = true) :
    isVersionChar c = true := by
  have parts : (Unicode.isWord c = true ∨ c = '.') ∨ c = '-' := by simpa [isPartChar] using h
  rcases parts with (word | rfl) | rfl
  · simp [isVersionChar, word]
  · decide
  · decide

/-- A coordinate fits between quotes on one line. -/
theorem inLiteral_of_isVersionChar {c : Char} (h : isVersionChar c = true) :
    isQuote c = false ∧ isLineBreak c = false := by
  have quoted : isQuote c = true → c = '"' ∨ c = '\'' := by simp [isQuote]
  have broken : isLineBreak c = true → c = '\n' ∨ c = '\r' := by simp [isLineBreak]
  constructor
  · cases same : isQuote c with
    | false => rfl
    | true => rcases quoted same with rfl | rfl <;> exact absurd h (by decide)
  · cases same : isLineBreak c with
    | false => rfl
    | true => rcases broken same with rfl | rfl <;> exact absurd h (by decide)

/-- An attribute whose value is part of a coordinate. -/
def partAttribute (name : List Char) (identifier : isIdentifier name = true)
    (value : Run isPartChar) : Attribute where
  name := name
  value := value.1
  identifier := identifier
  inLiteral := by
    intro c hc
    obtain ⟨notQuote, notBreak⟩ :=
      inLiteral_of_isVersionChar (isVersionChar_of_isPartChar (value.2 c hc))
    refine ⟨?_, notBreak⟩
    rintro rfl
    cases notQuote

def groupAttribute : Run isPartChar → Attribute := partAttribute "group".toList (by decide)

def nameAttribute : Run isPartChar → Attribute := partAttribute "name".toList (by decide)

def versionAttribute : Run isPartChar → Attribute := partAttribute "version".toList (by decide)

/-- The text of the attributes of a declaration, in their fixed order. -/
def namedText (group : Option (Run isPartChar)) (name : Run isPartChar)
    (version : Option (Run isPartChar)) : List Char :=
  let rest := (version.map versionAttribute).toList
  match group with
  | none => attributesText (nameAttribute name) rest
  | some group => attributesText (groupAttribute group) (nameAttribute name :: rest)

def Statement.text : Statement → List Char
  | .listed kind gap first others =>
    kind.chars ++ (gap.chars ++ (first.text ++
      others.flatMap fun (comma, quoted) => comma.text ++ quoted.text))
  | .call kind coordinate => kind.chars ++ '(' :: (coordinate.text ++ [')'])
  | .named kind gap group name version =>
    kind.chars ++ (gap.chars ++ namedText group name version)
  | .excluding kind coordinate blanks lineBreak first others indent =>
    kind.chars ++ '(' :: (coordinate.text ++ ')' :: (blanks.1 ++ '{' :: (lineBreak.text ++
      ((first :: others).flatMap ExcludeLine.text ++ (indent.1 ++ ['}'])))))

/-- The dependency on a coordinate. -/
def dependency (kind : Kind) (excludes : List Attributes) (coordinate : Coordinate) : Dependency :=
  ⟨coordinate.group, coordinate.name, coordinate.version, kind.name, excludes⟩

/-- A part that may be left out. -/
def partText (part : Option (Run isPartChar)) : String :=
  match part with
  | none => ""
  | some part => String.ofList part.1

/-- What a statement declares. -/
def Statement.declared : Statement → List Dependency
  | .listed kind _ first others =>
    (first :: others.map Prod.snd).map fun quoted => dependency kind [] quoted.content.coordinate
  | .call kind coordinate => [dependency kind [] coordinate.content.coordinate]
  | .named kind _ group name version =>
    [dependency kind [] ⟨partText group, String.ofList name.1, partText version⟩]
  | .excluding kind coordinate _ _ first others _ =>
    [dependency kind ((first :: others).map ExcludeLine.rule) coordinate.content.coordinate]

/-! ## Lines and blocks -/

/-- A line that says nothing.  The index tells whether it ends in a `//` comment. -/
inductive Filler : Bool → Type where
  | blank (indent : Indent) : Filler false
  | comment (indent : Indent) (text : CommentText) : Filler true
  | afterComment {commented : Bool} (indent : Indent) (body : CommentBody)
      (line : Filler commented) : Filler commented

def Filler.text {commented : Bool} : Filler commented → List Char
  | .blank indent => indent.1
  | .comment indent text => indent.1 ++ '/' :: '/' :: text.1
  | .afterComment indent body line =>
    indent.1 ++ '/' :: '*' :: (body.chars ++ '*' :: '/' :: line.text)

/-- A line of a block, without its line break. -/
inductive BodyLine where
  | filler {commented : Bool} (filler : Filler commented)
  | statement (indent : Indent) (statement : Statement)

def BodyLine.text : BodyLine → List Char
  | .filler line => line.text
  | .statement indent line => indent.1 ++ line.text

def BodyLine.declared : BodyLine → List Dependency
  | .filler _ => []
  | .statement _ line => line.declared

/-- The lines of a block, each with the line break that ends it. -/
abbrev Body := List (BodyLine × LineBreak)

def Body.text (body : Body) : List Char :=
  body.flatMap fun (line, lineBreak) => line.text ++ lineBreak.text

def Body.declared (body : Body) : List Dependency := body.flatMap fun (line, _) => line.declared

/-- A block `dependencies { … }`. -/
structure Block where
  indent : Indent
  separators : Separators
  body : Body
  closing : Indent
  tail : Tail

def Block.text (block : Block) : List Char :=
  block.indent.1 ++ ("dependencies".toList ++ (block.separators.1 ++ '{' ::
    (block.body.text ++ (block.closing.1 ++ '}' :: block.tail.1))))

/-- A line of a script, without its line break. -/
inductive Part where
  | filler {commented : Bool} (filler : Filler commented)
  | block (block : Block)

def Part.text : Part → List Char
  | .filler line => line.text
  | .block lines => lines.text

def Part.declared : Part → List Dependency
  | .filler _ => []
  | .block lines => lines.body.declared

/-- A script of one block or more, with lines that say nothing around them. -/
structure Script where
  before : List ((Σ commented, Filler commented) × LineBreak)
  first : Block
  others : List (LineBreak × Part)

def Script.text (script : Script) : List Char :=
  (script.before.flatMap fun (filler, lineBreak) => filler.2.text ++ lineBreak.text) ++
    (script.first.text ++ script.others.flatMap fun (lineBreak, part) => lineBreak.text ++ part.text)

/-- The dependencies of all blocks, in the order in which they are written. -/
def Script.declared (script : Script) : List Dependency :=
  script.first.body.declared ++ script.others.flatMap fun (_, part) => part.declared

end BuildScript.Dependencies
