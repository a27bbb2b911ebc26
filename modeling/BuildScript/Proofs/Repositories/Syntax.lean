import BuildScript.Proofs.Dependencies.Syntax
import BuildScript.Proofs.Locality.Reading
import BuildScript.Proofs.Repositories.Entries

/-!
# Repositories blocks

The lines of a `repositories` block as data: bare calls, values and blocks, with blank lines and
comments between them.  A body has a text and a list of the entries that it holds.
-/

namespace BuildScript.Repositories

open Grammar
open Dependencies (Filler)

/-! ## Entries -/

/-- The name of an entry, which may be a call. -/
structure Name where
  chars : List Char
  nonempty : chars ≠ []
  inWord : ∀ c ∈ chars, endsWord c = false
  notKeyword : String.ofList chars ∉ keywords
  notTest : ¬ ['i', 'f', '('] <+: chars
  notLineComment : ¬ ['/', '/'] <+: chars
  notBlockComment : ¬ ['/', '*'] <+: chars

def Name.name (name : Name) : String := String.ofList name.chars

/-- The text of a block in a repositories block, and the document that is read from it.  Its `}` is
the one that ends the block. -/
structure BlockText (nesting : Nesting) where
  chars : List Char
  doc : Document
  room : nesting.depth < nesting.limit
  closes : readScope ⟨nesting.limit, nesting.depth + 1⟩ .repository (chars ++ ['}', '\n']) =
    .closed doc ['\n']

variable {nesting : Nesting}

/-- A line with an entry, behind its indentation. -/
inductive Entry (nesting : Nesting) where
  | bare (name : Name) (separators : Separators)
  | value (name : Name) (separator : Separator) (content : ValueText)
      (notEmpty : (classify content.chars).isEmptyText = false)
  | block (name : Name) (notDependencies : name.name ≠ "dependencies")
      (notRepositories : name.name ≠ "repositories") (separators : Separators)
      (body : BlockText nesting) (tail : Tail)

def Entry.text : Entry nesting → List Char
  | bare name separators => name.chars ++ separators.1
  | value name separator content _ => name.chars ++ (separator.chars ++ content.chars)
  | block name _ _ separators body tail =>
    name.chars ++ (separators.1 ++ '{' :: (body.chars ++ '}' :: tail.1))

/-- The entry that the line stands for. -/
def Entry.meaning : Entry nesting → Repository Value
  | bare name _ => .unknown name.name
  | value name _ content _ => .named name.name (classify content.chars)
  | block name _ _ _ body _ => .named name.name (.document body.doc)

/-! ## Lines -/

/-- A line of a repositories block, without its line break. -/
inductive BodyLine (nesting : Nesting) where
  | filler {commented : Bool} (line : Filler commented)
  | entry (indent : Indent) (written : Entry nesting)

def BodyLine.text : BodyLine nesting → List Char
  | filler line => line.text
  | entry indent written => indent.1 ++ written.text

def BodyLine.entries : BodyLine nesting → List (Repository Value)
  | filler _ => []
  | entry _ written => [written.meaning]

/-- The lines of a block, each with the line break that ends it. -/
abbrev Body (nesting : Nesting) := List (BodyLine nesting × LineBreak)

def Body.text (body : Body nesting) : List Char :=
  body.flatMap fun (line, lineBreak) => line.text ++ lineBreak.text

/-- The entries of all lines, in the order in which they are written. -/
def Body.entries (body : Body nesting) : List (Repository Value) :=
  body.flatMap fun (line, _) => line.entries

end BuildScript.Repositories
