import BuildScript.Document

/-!
# Data of TOML

A table gives each key a value or a table of its own, and a value is written in one piece.  The
documents in a document become tables, those in a list inline tables; so do the records, whose
fields become keys.
-/

namespace BuildScript.Toml

/-- A value in one piece. -/
inductive Inline where
  | text (text : String)
  | boolean (value : Bool)
  | array (items : List Inline)
  | table (entries : List (String × Inline))

inductive Item where
  | value (value : Inline)
  | table (entries : List (String × Item))

abbrev Table := List (String × Item)

namespace Inline

def ofAttributes (attributes : Attributes) : Inline :=
  .table (attributes.map fun (name, value) => (name, .text value))

def ofDependency (d : Dependency) : Inline :=
  .table [("group", .text d.group), ("name", .text d.name), ("version", .text d.version),
    ("kind", .text d.kind), ("excludes", .array (d.excludes.map ofAttributes))]

mutual

def ofValue : Value → Inline
  | .text s => .text s
  | .boolean b => .boolean b
  | .sequence items => .array (ofSequence items)
  | .document entries => .table (ofDocument entries)
  | .dependencies declarations => .array (declarations.map ofDependency)
  | .repositories entries => .array (ofRepositories entries)

def ofSequence : List Value → List Inline
  | [] => []
  | v :: values => ofValue v :: ofSequence values

def ofDocument : List (String × Value) → List (String × Inline)
  | [] => []
  | (k, v) :: entries => (k, ofValue v) :: ofDocument entries

def ofRepositories : List (Repository Value) → List Inline
  | [] => []
  | .unknown name :: entries =>
    .table [("type", .text "unknown"), ("data", .table [("name", .text name)])] ::
      ofRepositories entries
  | .named type data :: entries =>
    .table [("type", .text type), ("data", ofValue data)] :: ofRepositories entries

end

end Inline

mutual

/-- What a key of a table holds: a document is a table of its own there. -/
def Item.ofValue : Value → Item
  | .document entries => .table (Table.ofDocument entries)
  | v => .value (Inline.ofValue v)

def Table.ofDocument : List (String × Value) → Table
  | [] => []
  | (k, v) :: entries => (k, Item.ofValue v) :: Table.ofDocument entries

end

end BuildScript.Toml
