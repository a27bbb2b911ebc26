import BuildScript.Document
import Mathlib.Data.List.Nodup

/-!
# Documents with unique keys

A map has each of its keys once.  A document with unique keys is settled by the order of its keys
and by what each key leads to.
-/

namespace BuildScript

/-! ## Unique keys at every level -/

mutual

/-- No document in the value has a key twice, and no rule of a dependency a name. -/
def Value.UniqueKeys : Value → Prop
  | .text _ => True
  | .boolean _ => True
  | .sequence items => itemsUnique items
  | .document doc => (doc.map Prod.fst).Nodup ∧ entriesUnique doc
  | .dependencies declarations =>
    ∀ d ∈ declarations, ∀ rule ∈ d.excludes, (rule.map Prod.fst).Nodup
  | .repositories entries => repositoriesUnique entries

def itemsUnique : List Value → Prop
  | [] => True
  | v :: items => v.UniqueKeys ∧ itemsUnique items

def entriesUnique : List (String × Value) → Prop
  | [] => True
  | (_, v) :: doc => v.UniqueKeys ∧ entriesUnique doc

def repositoriesUnique : List (Repository Value) → Prop
  | [] => True
  | .unknown _ :: entries => repositoriesUnique entries
  | .named _ data :: entries => data.UniqueKeys ∧ repositoriesUnique entries

end

namespace Document

/-- The keys of the document are unique, as are those of every value in it. -/
structure UniqueKeys (doc : Document) : Prop where
  keys : doc.keys.Nodup
  values : ∀ entry ∈ doc, entry.2.UniqueKeys

variable {doc : Document} {key : String} {v : Value}

theorem entriesUnique_iff : entriesUnique doc ↔ ∀ entry ∈ doc, entry.2.UniqueKeys := by
  induction doc with
  | nil => simp [entriesUnique]
  | cons entry doc ih =>
    obtain ⟨key, v⟩ := entry
    rw [entriesUnique, ih, List.forall_mem_cons]

theorem uniqueKeys_document_iff : (Value.document doc).UniqueKeys ↔ doc.UniqueKeys := by
  rw [Value.UniqueKeys, entriesUnique_iff]
  exact ⟨fun ⟨keys, values⟩ => ⟨keys, values⟩, fun ⟨keys, values⟩ => ⟨keys, values⟩⟩

theorem uniqueKeys_nil : UniqueKeys [] :=
  ⟨List.nodup_nil, fun _ member => absurd member List.not_mem_nil⟩

/-! ## Looking up -/

theorem mem_of_get? (found : doc.get? key = some v) : (key, v) ∈ doc := by
  induction doc with
  | nil => cases found
  | cons entry doc ih =>
    obtain ⟨k, w⟩ := entry
    rw [get?] at found
    split at found
    · next same =>
      cases found
      exact same ▸ List.mem_cons_self
    · exact List.mem_cons_of_mem _ (ih found)

theorem get?_eq_none_iff : doc.get? key = none ↔ key ∉ doc.keys := by
  induction doc with
  | nil => simp [get?, Document.keys]
  | cons entry doc ih =>
    obtain ⟨k, w⟩ := entry
    rw [Document.keys] at ih ⊢
    by_cases same : k = key
    · simp [get?, same]
    · simp [get?, same, Ne.symm same, ih]

theorem UniqueKeys.get? (h : doc.UniqueKeys) (found : doc.get? key = some v) : v.UniqueKeys :=
  h.values _ (mem_of_get? found)

theorem UniqueKeys.inner {inner : Document} (h : doc.UniqueKeys)
    (found : doc.get? key = some (.document inner)) : inner.UniqueKeys :=
  uniqueKeys_document_iff.1 (h.get? found)

/-- What a key leads to is smaller than the document. -/
theorem sizeOf_lt_of_get? {inner : Document} (found : doc.get? key = some (.document inner)) :
    sizeOf inner < sizeOf doc := by
  have entry := List.sizeOf_lt_of_mem (mem_of_get? found)
  rw [Prod.mk.sizeOf_spec, Value.document.sizeOf_spec] at entry
  omega

/-- Documents with the same keys in the same order that lead to the same values are equal. -/
theorem ext_get? {doc' : Document} (unique : doc.keys.Nodup) (keys : doc.keys = doc'.keys)
    (same : ∀ key, doc.get? key = doc'.get? key) : doc = doc' := by
  induction doc generalizing doc' with
  | nil =>
    cases doc' with
    | nil => rfl
    | cons entry doc' => cases keys
  | cons entry doc ih =>
    obtain ⟨key, v⟩ := entry
    cases doc' with
    | nil => cases keys
    | cons entry' doc' =>
      obtain ⟨key', v'⟩ := entry'
      obtain ⟨rfl, others⟩ : key = key' ∧ Document.keys doc = Document.keys doc' :=
        List.cons.inj keys
      obtain ⟨new, rest⟩ : key ∉ Document.keys doc ∧ (Document.keys doc).Nodup :=
        List.nodup_cons.1 unique
      have first : v = v' := by simpa [get?] using same key
      subst first
      refine congrArg (List.cons (key, v)) (ih rest others fun k => ?_)
      by_cases here : key = k
      · subst here
        rw [get?_eq_none_iff.2 new, get?_eq_none_iff.2 (others ▸ new)]
      · simpa [get?, here] using same k

/-! ## Setting -/

theorem nodup_keys_set (unique : doc.keys.Nodup) (key : String) (v : Value) :
    (doc.set key v).keys.Nodup := by
  rw [keys_set]
  split
  · exact unique
  · next new =>
    rw [← List.concat_eq_append]
    exact unique.concat new

theorem nodup_keys_add (unique : doc.keys.Nodup) (key : String) (v : Value) :
    (doc.add key v).keys.Nodup := by
  unfold add
  split <;> exact nodup_keys_set unique key _

theorem UniqueKeys.set (h : doc.UniqueKeys) (key : String) (unique : v.UniqueKeys) :
    (doc.set key v).UniqueKeys := by
  constructor
  · exact nodup_keys_set h.keys key v
  · intro entry member
    have values := h.values
    clear h
    induction doc with
    | nil => exact List.mem_singleton.1 member ▸ unique
    | cons first doc ih =>
      obtain ⟨k, w⟩ := first
      obtain ⟨here, others⟩ := List.forall_mem_cons.1 values
      rw [Document.set] at member
      split at member
      · rcases List.mem_cons.1 member with rfl | later
        · exact unique
        · exact others entry later
      · rcases List.mem_cons.1 member with rfl | later
        · exact here
        · exact ih later others

end Document

end BuildScript
