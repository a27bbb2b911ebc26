import BuildScript.Repository
import BuildScript.Proofs.Merge.UniqueKeys
import Mathlib.Data.List.Induction

/-!
# Entries gathered by key

The body of a repositories block passes through a document, in which the values of one key gather in
a sequence.  Expanding the sequences gives the entries back, those of one key next to each other and
the keys in the order in which they first appeared.
-/

namespace BuildScript

/-! ## Entries under keys -/

namespace Repository

/-- The key that the entry is stored under. -/
def key : Repository Value → String
  | unknown name => name
  | named type _ => type

/-- The value that the entry is stored as. -/
def value : Repository Value → Value
  | unknown _ => .text ""
  | named _ data => data

/-- The entry comes back from its value: what it holds is no empty text and no sequence. -/
def IsKept : Repository Value → Prop
  | unknown _ => True
  | named _ data => data.isEmptyText = false ∧ ∀ items, data ≠ .sequence items

theorem repositoryEntry_value {entry : Repository Value} (kept : entry.IsKept) :
    repositoryEntry entry.key entry.value = entry := by
  cases entry with
  | unknown name => rfl
  | named type data => simp [repositoryEntry, key, value, kept.1]

theorem value_ne_sequence {entry : Repository Value} (kept : entry.IsKept) (items : List Value) :
    entry.value ≠ .sequence items := by
  cases entry with
  | unknown name => simp [value]
  | named type data => exact kept.2 items

end Repository

theorem key_repositoryEntry (key : String) (v : Value) : (repositoryEntry key v).key = key := by
  unfold repositoryEntry
  split <;> rfl

theorem key_mem_keys_of_mem_entries {doc : Document} {entry : Repository Value}
    (h : entry ∈ repositoryEntries doc) : entry.key ∈ doc.keys := by
  obtain ⟨⟨key, v⟩, inDoc, made⟩ := List.mem_flatMap.1 h
  have same : entry.key = key := by
    simp only at made
    split at made
    · obtain ⟨item, -, rfl⟩ := List.mem_map.1 made
      exact key_repositoryEntry key item
    · rw [List.mem_singleton.1 made]
      exact key_repositoryEntry key _
  exact same ▸ List.mem_map_of_mem inDoc

/-- The entries with one key after those with another, in the order in which the keys first appear.
Entries with the same key keep their order. -/
def grouped (entries : List (Repository Value)) : List (Repository Value) :=
  (entries.map Repository.key).eraseDups.flatMap fun key => entries.filter (·.key = key)

theorem nodup_eraseDups (keys : List String) : keys.eraseDups.Nodup := by
  match keys with
  | [] => simp
  | key :: keys =>
    rw [List.eraseDups_cons]
    refine List.nodup_cons.2 ⟨?_, nodup_eraseDups _⟩
    simp [List.mem_eraseDups]
termination_by keys.length
decreasing_by exact Nat.lt_succ_of_le (List.length_filter_le _ _)

/-- Grouping drops and repeats no entry. -/
theorem grouped_perm (entries : List (Repository Value)) : (grouped entries).Perm entries := by
  have apart : ∀ (keys : List String) (entries : List (Repository Value)), keys.Nodup →
      (∀ e ∈ entries, e.key ∈ keys) →
      (keys.flatMap fun key => entries.filter (·.key = key)).Perm entries := by
    intro keys
    induction keys with
    | nil =>
      intro entries _ listed
      rw [List.eq_nil_iff_forall_not_mem.2 fun e member => List.not_mem_nil (listed e member)]
      exact List.Perm.refl []
    | cons key keys ih =>
      intro entries distinct listed
      obtain ⟨new, distinct⟩ := List.nodup_cons.1 distinct
      -- The entries with the other keys are untouched by leaving out those with the first one.
      have others : (keys.flatMap fun k => entries.filter (·.key = k)) =
          keys.flatMap fun k =>
            (entries.filter fun e => !decide (e.key = key)).filter (·.key = k) := by
        refine List.flatMap_congr fun k member => ?_
        rw [List.filter_filter]
        refine List.filter_congr fun e _ => ?_
        have other : k ≠ key := by
          rintro rfl
          exact new member
        by_cases same : e.key = k <;> simp [same, other]
      rw [List.flatMap_cons, others]
      refine (List.Perm.append_left _ (ih _ distinct fun e member => ?_)).trans
        (List.filter_append_perm _ _)
      obtain ⟨listed', other⟩ := List.mem_filter.1 member
      rcases List.mem_cons.1 (listed e listed') with same | later
      · simp [same] at other
      · exact later
  exact apart _ entries (nodup_eraseDups _) fun e member =>
    List.mem_eraseDups.2 (List.mem_map_of_mem member)

namespace Document

variable {doc : Document} {key : String} {v : Value}

/-! ## Gathered values -/

/-- The values that have gathered under a key. -/
def gathered (key : String) (doc : Document) : List Value :=
  match get? key doc with
  | none => []
  | some (.sequence items) => items
  | some v => [v]

theorem exists_add_eq_set (key : String) (v : Value) (doc : Document) :
    ∃ w, doc.add key v = doc.set key w := by
  unfold add
  split <;> exact ⟨_, rfl⟩

theorem keys_add (key : String) (v : Value) (doc : Document) :
    keys (doc.add key v) = if key ∈ keys doc then keys doc else keys doc ++ [key] := by
  obtain ⟨w, same⟩ := exists_add_eq_set key v doc
  rw [same, keys_set]

theorem gathered_add (single : ∀ items, v ≠ .sequence items) (doc : Document) (key k : String) :
    gathered k (doc.add key v) =
      if key = k then gathered key doc ++ [v] else gathered k doc := by
  have alone : ∀ w : Value, (∀ items, w ≠ .sequence items) → ∀ doc,
      get? key doc = some w → gathered key doc = [w] := by
    intro w single doc found
    simp only [gathered, found]
  by_cases here : key = k
  · subst here
    rw [if_pos rfl, add]
    cases found : get? key doc with
    | none =>
      rw [alone v single _ (by rw [get?_set, if_pos rfl])]
      simp [gathered, found]
    | some w =>
      by_cases several : ∃ items, w = .sequence items
      · obtain ⟨items, rfl⟩ := several
        simp [gathered, found, get?_set]
      · have one : ∀ items, w ≠ .sequence items := fun items same => several ⟨items, same⟩
        rw [alone w one doc found]
        simp [gathered, get?_set]
  · obtain ⟨w, same⟩ := exists_add_eq_set key v doc
    rw [if_neg here, gathered, gathered, same, get?_set, if_neg here]

theorem get?_of_mem (unique : doc.keys.Nodup) (member : (key, v) ∈ doc) :
    get? key doc = some v := by
  induction doc with
  | nil => cases member
  | cons entry doc ih =>
    obtain ⟨k, w⟩ := entry
    obtain ⟨new, rest⟩ : k ∉ keys doc ∧ (keys doc).Nodup := List.nodup_cons.1 unique
    rcases List.mem_cons.1 member with same | later
    · cases same
      simp [get?]
    · have other : k ≠ key := by
        rintro rfl
        exact new (List.mem_map_of_mem later)
      simp [get?, other, ih rest later]

theorem repositoryEntries_eq_flatMap (unique : doc.keys.Nodup) :
    repositoryEntries doc =
      doc.keys.flatMap fun key => (gathered key doc).map (repositoryEntry key) := by
  rw [repositoryEntries, keys, List.flatMap_map]
  refine List.flatMap_congr fun entry member => ?_
  obtain ⟨key, v⟩ := entry
  have found := get?_of_mem unique member
  cases v <;> simp [gathered, found]

/-! ## Adding entries -/

/-- Add the entries one after the other. -/
def addEntries (entries : List (Repository Value)) (doc : Document) : Document :=
  entries.foldl (fun doc entry => doc.add entry.key entry.value) doc

theorem addEntries_append (entries more : List (Repository Value)) (doc : Document) :
    addEntries (entries ++ more) doc = addEntries more (addEntries entries doc) :=
  List.foldl_append

theorem addEntries_concat (entries : List (Repository Value)) (entry : Repository Value)
    (doc : Document) :
    addEntries (entries ++ [entry]) doc = (addEntries entries doc).add entry.key entry.value := by
  simp [addEntries]

/-- The keys stand in the order in which they first appear. -/
theorem keys_addEntries (entries : List (Repository Value)) :
    keys (addEntries entries []) = (entries.map Repository.key).eraseDups := by
  induction entries using List.reverseRecOn with
  | nil => rfl
  | append_singleton entries entry ih =>
    rw [addEntries_concat, keys_add, ih, List.map_append, List.eraseDups_append]
    have last : [entry].map Repository.key = [entry.key] := rfl
    by_cases old : entry.key ∈ entries.map Repository.key
    · have none : [entry.key].removeAll (entries.map Repository.key) = [] := by
        rw [List.removeAll, List.filter_cons_of_neg (by simpa using old), List.filter_nil]
      rw [if_pos (List.mem_eraseDups.2 old), last, none, List.eraseDups_nil, List.append_nil]
    · have new : [entry.key].removeAll (entries.map Repository.key) = [entry.key] := by
        rw [List.removeAll, List.filter_cons_of_pos (by simpa using old), List.filter_nil]
      rw [if_neg fun listed => old (List.mem_eraseDups.1 listed), last, new]
      rfl

theorem nodup_keys_addEntries (entries : List (Repository Value)) :
    (keys (addEntries entries [])).Nodup := by
  rw [keys_addEntries]
  exact nodup_eraseDups _

theorem gathered_addEntries {entries : List (Repository Value)} (kept : ∀ e ∈ entries, e.IsKept)
    (key : String) :
    gathered key (addEntries entries []) =
      (entries.filter (·.key = key)).map Repository.value := by
  induction entries using List.reverseRecOn with
  | nil => rfl
  | append_singleton entries entry ih =>
    have last := kept entry (by simp)
    rw [addEntries_concat, gathered_add (Repository.value_ne_sequence last),
      List.filter_append, List.map_append]
    have earlier := ih fun e member => kept e (by simp [member])
    by_cases here : entry.key = key
    · subst here
      simp [earlier]
    · simp [earlier, here]

/-- What is gathered under the keys is given back as the entries, grouped by key. -/
theorem repositoryEntries_addEntries {entries : List (Repository Value)}
    (kept : ∀ e ∈ entries, e.IsKept) :
    repositoryEntries (addEntries entries []) = grouped entries := by
  rw [repositoryEntries_eq_flatMap (nodup_keys_addEntries entries), keys_addEntries, grouped]
  refine List.flatMap_congr fun key _ => ?_
  rw [gathered_addEntries kept, List.map_map]
  have back : ∀ entry ∈ entries.filter (·.key = key),
      (repositoryEntry key ∘ Repository.value) entry = id entry := by
    intro entry member
    obtain ⟨listed, same⟩ := List.mem_filter.1 member
    have same : entry.key = key := by simpa using same
    exact same ▸ Repository.repositoryEntry_value (kept entry listed)
  rw [List.map_congr_left back, List.map_id]

end Document

end BuildScript
