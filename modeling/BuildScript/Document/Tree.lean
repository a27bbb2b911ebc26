import BuildScript.Document

/-!
# Trees

Plain data: texts, truth values, arrays and maps.  The records of a document become maps with fixed
keys, so that a format without data of its own needs to know trees only.
-/

namespace BuildScript

inductive Tree where
  | text (text : String)
  | boolean (value : Bool)
  | array (items : List Tree)
  | map (entries : List (String × Tree))

def Attributes.tree (attributes : Attributes) : Tree :=
  .map (attributes.map fun (name, text) => (name, .text text))

def Dependency.tree (d : Dependency) : Tree :=
  .map [("group", .text d.group), ("name", .text d.name), ("version", .text d.version),
    ("kind", .text d.kind), ("excludes", .array (d.excludes.map Attributes.tree))]

mutual

def Value.tree : Value → Tree
  | .text s => .text s
  | .boolean b => .boolean b
  | .sequence items => .array (sequenceTrees items)
  | .document entries => .map (entryTrees entries)
  | .dependencies declarations => .array (declarations.map Dependency.tree)
  | .repositories entries => .array (repositoryTrees entries)

def sequenceTrees : List Value → List Tree
  | [] => []
  | v :: values => v.tree :: sequenceTrees values

def entryTrees : List (String × Value) → List (String × Tree)
  | [] => []
  | (k, v) :: entries => (k, v.tree) :: entryTrees entries

def repositoryTrees : List (Repository Value) → List Tree
  | [] => []
  | .unknown name :: entries =>
    .map [("type", .text "unknown"), ("data", .map [("name", .text name)])] ::
      repositoryTrees entries
  | .named type data :: entries =>
    .map [("type", .text type), ("data", data.tree)] :: repositoryTrees entries

end

def Document.tree (doc : Document) : Tree := .map (entryTrees doc)

end BuildScript
