import BuildScript.Document.Tree
import BuildScript.Proofs.Merge.UniqueKeys

/-!
# Trees as data

Trees whose maps have unique keys, and the comparison of trees that does not look at the order in
which a map gives its entries.
-/

namespace BuildScript

/-! ## Unique keys -/

mutual

/-- No map in the tree has a key twice. -/
def Tree.UniqueKeys : Tree → Prop
  | .text _ => True
  | .boolean _ => True
  | .array items => treesUnique items
  | .map entries => (entries.map Prod.fst).Nodup ∧ entryTreesUnique entries

def treesUnique : List Tree → Prop
  | [] => True
  | t :: items => t.UniqueKeys ∧ treesUnique items

def entryTreesUnique : List (String × Tree) → Prop
  | [] => True
  | (_, t) :: entries => t.UniqueKeys ∧ entryTreesUnique entries

end

theorem treesUnique_iff {items : List Tree} :
    treesUnique items ↔ ∀ t ∈ items, t.UniqueKeys := by
  induction items with
  | nil => simp [treesUnique]
  | cons t items ih => rw [treesUnique, ih, List.forall_mem_cons]

theorem entryTreesUnique_iff {entries : List (String × Tree)} :
    entryTreesUnique entries ↔ ∀ entry ∈ entries, entry.2.UniqueKeys := by
  induction entries with
  | nil => simp [entryTreesUnique]
  | cons entry entries ih => rw [entryTreesUnique, ih, List.forall_mem_cons]

/-- A record of texts has unique keys if its names are. -/
theorem Attributes.uniqueKeys_tree {rule : Attributes} (h : (rule.map Prod.fst).Nodup) :
    rule.tree.UniqueKeys := by
  refine ⟨by simpa [Function.comp_def] using h, entryTreesUnique_iff.2 ?_⟩
  rintro entry member
  obtain ⟨pair, -, rfl⟩ := List.mem_map.1 member
  trivial

theorem Dependency.uniqueKeys_tree {d : Dependency}
    (h : ∀ rule ∈ d.excludes, (rule.map Prod.fst).Nodup) : d.tree.UniqueKeys := by
  have excludes : treesUnique (d.excludes.map Attributes.tree) := by
    rw [treesUnique_iff]
    rintro t member
    obtain ⟨rule, inside, rfl⟩ := List.mem_map.1 member
    exact Attributes.uniqueKeys_tree (h rule inside)
  exact ⟨by simp, trivial, trivial, trivial, trivial, excludes, trivial⟩

theorem keys_entryTrees (entries : List (String × Value)) :
    (entryTrees entries).map Prod.fst = entries.map Prod.fst := by
  induction entries with
  | nil => rfl
  | cons entry entries ih => rw [entryTrees, List.map_cons, List.map_cons, ih]

mutual

theorem Value.uniqueKeys_tree (v : Value) (h : v.UniqueKeys) : v.tree.UniqueKeys := by
  match v with
  | .text _ => trivial
  | .boolean _ => trivial
  | .sequence items => exact uniqueKeys_sequenceTrees items h
  | .document entries =>
    refine ⟨?_, uniqueKeys_entryTrees entries h.2⟩
    rw [keys_entryTrees]
    exact h.1
  | .dependencies declarations =>
    refine treesUnique_iff.2 fun t member => ?_
    obtain ⟨d, inside, rfl⟩ := List.mem_map.1 member
    exact Dependency.uniqueKeys_tree (h d inside)
  | .repositories entries => exact uniqueKeys_repositoryTrees entries h

theorem uniqueKeys_sequenceTrees (items : List Value) (h : itemsUnique items) :
    treesUnique (sequenceTrees items) := by
  match items with
  | [] => trivial
  | v :: items => exact ⟨v.uniqueKeys_tree h.1, uniqueKeys_sequenceTrees items h.2⟩

theorem uniqueKeys_entryTrees (entries : List (String × Value)) (h : entriesUnique entries) :
    entryTreesUnique (entryTrees entries) := by
  match entries with
  | [] => trivial
  | (_, v) :: entries => exact ⟨v.uniqueKeys_tree h.1, uniqueKeys_entryTrees entries h.2⟩

theorem uniqueKeys_repositoryTrees (entries : List (Repository Value))
    (h : repositoriesUnique entries) : treesUnique (repositoryTrees entries) := by
  match entries with
  | [] => trivial
  | .unknown _ :: entries =>
    exact ⟨⟨by simp, trivial, ⟨by simp, trivial, trivial⟩, trivial⟩,
      uniqueKeys_repositoryTrees entries h⟩
  | .named _ data :: entries =>
    exact ⟨⟨by simp, trivial, data.uniqueKeys_tree h.1, trivial⟩,
      uniqueKeys_repositoryTrees entries h.2⟩

end

theorem Document.UniqueKeys.tree {doc : Document} (h : doc.UniqueKeys) : doc.tree.UniqueKeys :=
  Value.uniqueKeys_tree (.document doc) (Document.uniqueKeys_document_iff.2 h)

/-! ## Equal up to order -/

namespace Tree

mutual

/-- The trees are equal if maps are compared without order. -/
inductive Same : Tree → Tree → Prop
  | text (s : String) : Same (.text s) (.text s)
  | boolean (b : Bool) : Same (.boolean b) (.boolean b)
  | array {items items' : List Tree} (inner : SameItems items items') :
      Same (.array items) (.array items')
  | map {entries entries' : List (String × Tree)} (inner : SameEntries entries entries') :
      Same (.map entries) (.map entries')

inductive SameItems : List Tree → List Tree → Prop
  | nil : SameItems [] []
  | cons {t t' : Tree} {items items' : List Tree} (first : Same t t')
      (others : SameItems items items') : SameItems (t :: items) (t' :: items')

inductive SameEntries : List (String × Tree) → List (String × Tree) → Prop
  | nil : SameEntries [] []
  | cons (k : String) {t t' : Tree} {entries entries' : List (String × Tree)} (first : Same t t')
      (others : SameEntries entries entries') :
      SameEntries ((k, t) :: entries) ((k, t') :: entries')
  | swap (first second : String × Tree) (entries : List (String × Tree)) :
      SameEntries (first :: second :: entries) (second :: first :: entries)
  | trans {entries entries' entries'' : List (String × Tree)} (one : SameEntries entries entries')
      (more : SameEntries entries' entries'') : SameEntries entries entries''

end

mutual

theorem Same.refl (t : Tree) : Same t t := by
  match t with
  | .text s => exact .text s
  | .boolean b => exact .boolean b
  | .array items => exact .array (SameItems.refl items)
  | .map entries => exact .map (SameEntries.refl entries)

theorem SameItems.refl (items : List Tree) : SameItems items items := by
  match items with
  | [] => exact .nil
  | t :: items => exact .cons (Same.refl t) (SameItems.refl items)

theorem SameEntries.refl (entries : List (String × Tree)) : SameEntries entries entries := by
  match entries with
  | [] => exact .nil
  | (k, t) :: entries => exact .cons k (Same.refl t) (SameEntries.refl entries)

end

theorem SameEntries.of_perm {entries entries' : List (String × Tree)}
    (h : entries.Perm entries') : SameEntries entries entries' := by
  induction h with
  | nil => exact .nil
  | cons entry _ ih => exact .cons entry.1 (Same.refl entry.2) ih
  | swap first second entries => exact .swap second first entries
  | trans _ _ one more => exact .trans one more

end Tree

end BuildScript
