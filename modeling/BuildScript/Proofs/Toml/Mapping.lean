import BuildScript.Document.Tree
import BuildScript.Format.Toml.Table

/-!
# Data of TOML as plain data

A table of TOML is a map, whether it is written in one piece or under a header.  The table that a
document becomes is the map that the document is in every other format.
-/

namespace BuildScript.Toml

/-! ## Trees of values and tables -/

mutual

def Inline.tree : Inline → Tree
  | .text s => .text s
  | .boolean b => .boolean b
  | .array items => .array (inlineTrees items)
  | .table entries => .map (inlineEntryTrees entries)

def inlineTrees : List Inline → List Tree
  | [] => []
  | v :: items => v.tree :: inlineTrees items

def inlineEntryTrees : List (String × Inline) → List (String × Tree)
  | [] => []
  | (k, v) :: entries => (k, v.tree) :: inlineEntryTrees entries

end

mutual

def Item.tree : Item → Tree
  | .value v => v.tree
  | .table items => .map (itemTrees items)

def itemTrees : Table → List (String × Tree)
  | [] => []
  | (k, item) :: items => (k, item.tree) :: itemTrees items

end

theorem inlineTrees_map {α : Type} (f : α → Inline) (items : List α) :
    inlineTrees (items.map f) = items.map fun x => (f x).tree := by
  induction items with
  | nil => rfl
  | cons x items ih => rw [List.map_cons, inlineTrees, ih, List.map_cons]

/-! ## The mapping -/

namespace Inline

theorem tree_ofAttributes (attributes : Attributes) :
    (ofAttributes attributes).tree = attributes.tree := by
  rw [ofAttributes, Inline.tree, Attributes.tree]
  congr 1
  induction attributes with
  | nil => rfl
  | cons pair attributes ih =>
    rw [List.map_cons, inlineEntryTrees, ih, List.map_cons]
    rfl

theorem tree_ofDependency (d : Dependency) : (ofDependency d).tree = d.tree := by
  simp only [ofDependency, Inline.tree, inlineEntryTrees, inlineTrees_map, tree_ofAttributes,
    Dependency.tree]

mutual

/-- A value in one piece holds the data of the value that it is made of. -/
theorem tree_ofValue (v : Value) : (ofValue v).tree = v.tree := by
  match v with
  | .text _ => rfl
  | .boolean _ => rfl
  | .sequence items => rw [ofValue, Inline.tree, inlineTrees_ofSequence items, Value.tree]
  | .document entries => rw [ofValue, Inline.tree, inlineEntryTrees_ofDocument entries, Value.tree]
  | .dependencies declarations =>
    simp only [ofValue, Inline.tree, inlineTrees_map, tree_ofDependency, Value.tree]
  | .repositories entries =>
    rw [ofValue, Inline.tree, inlineTrees_ofRepositories entries, Value.tree]

theorem inlineTrees_ofSequence (items : List Value) :
    inlineTrees (ofSequence items) = sequenceTrees items := by
  match items with
  | [] => rfl
  | v :: items =>
    rw [ofSequence, inlineTrees, tree_ofValue v, inlineTrees_ofSequence items, sequenceTrees]

theorem inlineEntryTrees_ofDocument (entries : List (String × Value)) :
    inlineEntryTrees (ofDocument entries) = entryTrees entries := by
  match entries with
  | [] => rfl
  | (k, v) :: entries =>
    rw [ofDocument, inlineEntryTrees, tree_ofValue v, inlineEntryTrees_ofDocument entries,
      entryTrees]

theorem inlineTrees_ofRepositories (entries : List (Repository Value)) :
    inlineTrees (ofRepositories entries) = repositoryTrees entries := by
  match entries with
  | [] => rfl
  | .unknown _ :: entries =>
    rw [ofRepositories, inlineTrees, inlineTrees_ofRepositories entries, repositoryTrees]
    rfl
  | .named _ data :: entries =>
    have same := tree_ofValue data
    simp only [ofRepositories, inlineTrees, Inline.tree, inlineEntryTrees, same,
      inlineTrees_ofRepositories entries, repositoryTrees]

end

end Inline

mutual

theorem Item.tree_ofValue (v : Value) : (Item.ofValue v).tree = v.tree := by
  match v with
  | .document entries => rw [Item.ofValue, Item.tree, itemTrees_ofDocument entries, Value.tree]
  | .text _ | .boolean _ | .sequence _ | .dependencies _ | .repositories _ =>
    exact Inline.tree_ofValue _

/-- The table of a document holds the data of the document. -/
theorem itemTrees_ofDocument (entries : List (String × Value)) :
    itemTrees (Table.ofDocument entries) = entryTrees entries := by
  match entries with
  | [] => rfl
  | (k, v) :: entries =>
    rw [Table.ofDocument, itemTrees, Item.tree_ofValue v, itemTrees_ofDocument entries, entryTrees]

end

/-! ## Tables one key at a time -/

/-- Every other value is written in one piece. -/
theorem Item.ofValue_eq_value {v : Value} (plain : ∀ entries, v ≠ .document entries) :
    Item.ofValue v = .value (Inline.ofValue v) := by
  cases v with
  | document entries => exact absurd rfl (plain entries)
  | _ => rfl

/-- Documents are the only values that are maps. -/
theorem tree_ne_map {v : Value} (plain : ∀ entries, v ≠ .document entries)
    (inner : List (String × Tree)) : v.tree ≠ .map inner := by
  cases v with
  | document entries => exact absurd rfl (plain entries)
  | _ => rintro ⟨⟩

/-- A table is made key by key, and a document below a key is a table that is made so as well. -/
theorem table_induction {motive : List (String × Value) → Prop} (nil : motive [])
    (nested : ∀ k inner entries, motive inner → motive entries →
      motive ((k, .document inner) :: entries))
    (plain : ∀ k v entries, (∀ inner, v ≠ .document inner) → motive entries →
      motive ((k, v) :: entries)) (entries : List (String × Value)) : motive entries := by
  match entries with
  | [] => exact nil
  | (k, .document inner) :: entries =>
    exact nested k inner entries (table_induction nil nested plain inner)
      (table_induction nil nested plain entries)
  | (k, .text _) :: entries | (k, .boolean _) :: entries | (k, .sequence _) :: entries
  | (k, .dependencies _) :: entries | (k, .repositories _) :: entries =>
    exact plain k _ entries (by rintro inner ⟨⟩) (table_induction nil nested plain entries)

end BuildScript.Toml
