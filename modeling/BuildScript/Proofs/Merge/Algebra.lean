import BuildScript.Proofs.Merge.UniqueKeys

/-!
# The algebra of merging

A merge keeps the order of the keys of its base and adds the new ones behind them; under each key it
merges what both documents hold there.  The empty document is neutral, merging a document again
changes nothing, and merging is associative unless a value that is no document stands between two
documents.
-/

namespace BuildScript

namespace Document

variable {a b c : Document} {key : String}

/-! ## Keys and values of a merge -/

/-- What a merge holds under a key, from what its two sides hold there: the merge of two documents,
else the new value, else the old one. -/
def mergedValue? : Option Value → Option Value → Option Value
  | some (.document existing), some (.document incoming) =>
    some (.document (merge existing incoming))
  | _, some v => some v
  | earlier, none => earlier

@[simp] theorem mergedValue?_none_left (v : Option Value) : mergedValue? none v = v := by
  cases v <;> rfl

@[simp] theorem mergedValue?_none_right (v : Option Value) : mergedValue? v none = v := by
  cases v with
  | none => rfl
  | some v => cases v <;> rfl

theorem mergedValue?_documents (x y : Document) :
    mergedValue? (some (.document x)) (some (.document y)) = some (.document (merge x y)) := rfl

/-- Unless both values are documents, the new one counts. -/
theorem mergedValue?_of_not_document {v w : Value}
    (h : (∀ x, v ≠ .document x) ∨ ∀ y, w ≠ .document y) :
    mergedValue? (some v) (some w) = some w := by
  cases v with
  | document x =>
    cases w with
    | document y => exact absurd rfl (h.elim (fun h => absurd rfl (h x)) fun h => h y)
    | _ => rfl
  | _ => cases w <;> rfl

theorem mergeEntry_eq_set (base : Document) (key : String) (v : Value) :
    ∃ merged, mergeEntry base key v = set key merged base ∧
      mergedValue? (get? key base) (some v) = some merged := by
  cases v with
  | document incoming =>
    rw [mergeEntry]
    split
    · next existing found => exact ⟨_, rfl, by rw [found, mergedValue?_documents]⟩
    · next other =>
      refine ⟨_, rfl, ?_⟩
      cases found : get? key base with
      | none => rfl
      | some w => exact mergedValue?_of_not_document (.inl fun x same => other x (same ▸ found))
  | _ =>
    refine ⟨_, rfl, ?_⟩
    cases get? key base with
    | none => rfl
    | some w => exact mergedValue?_of_not_document (.inr fun y same => by cases same)

theorem keys_mergeEntry (base : Document) (key : String) (v : Value) :
    keys (mergeEntry base key v) = if key ∈ keys base then keys base else keys base ++ [key] := by
  obtain ⟨merged, same, -⟩ := mergeEntry_eq_set base key v
  rw [same, keys_set]

theorem get?_mergeEntry (base : Document) (key k : String) (v : Value) :
    get? k (mergeEntry base key v) =
      if key = k then mergedValue? (get? key base) (some v) else get? k base := by
  obtain ⟨merged, same, value⟩ := mergeEntry_eq_set base key v
  rw [same, get?_set, value]

/-- The keys of a merge are those of the base, and behind them the new ones. -/
theorem keys_merge (a : Document) {b : Document} (unique : b.keys.Nodup) :
    keys (merge a b) = keys a ++ (keys b).filter (· ∉ keys a) := by
  induction b generalizing a with
  | nil => simp [merge, keys]
  | cons entry b ih =>
    obtain ⟨key, v⟩ := entry
    obtain ⟨new, rest⟩ : key ∉ keys b ∧ (keys b).Nodup := List.nodup_cons.1 unique
    have first : keys ((key, v) :: b) = key :: keys b := rfl
    rw [merge, ih _ rest, keys_mergeEntry, first, List.filter_cons]
    split
    · next old => simp [old]
    · next absent =>
      have others : (keys b).filter (· ∉ keys a ++ [key]) = (keys b).filter (· ∉ keys a) := by
        refine List.filter_congr fun k member => ?_
        have other : k ≠ key := fun same => new (same ▸ member)
        simp [other]
      rw [others]
      simp [absent]

theorem get?_merge (a : Document) {b : Document} (unique : b.keys.Nodup) (k : String) :
    get? k (merge a b) = mergedValue? (get? k a) (get? k b) := by
  induction b generalizing a with
  | nil => rw [merge, get?, mergedValue?_none_right]
  | cons entry b ih =>
    obtain ⟨key, v⟩ := entry
    obtain ⟨new, rest⟩ : key ∉ keys b ∧ (keys b).Nodup := List.nodup_cons.1 unique
    rw [merge, ih _ rest, get?_mergeEntry, get?]
    split
    · next here =>
      subst here
      rw [get?_eq_none_iff.2 new, mergedValue?_none_right]
    · rfl

theorem mem_keys_merge (a : Document) {b : Document} (unique : b.keys.Nodup) {k : String} :
    k ∈ keys (merge a b) ↔ k ∈ keys a ∨ k ∈ keys b := by
  rw [keys_merge a unique]
  by_cases old : k ∈ keys a <;> simp [old]

/-! ## Unique keys -/

theorem uniqueKeys_merge_and_mergeEntry :
    (∀ (base : Document) (incoming : List (String × Value)), base.UniqueKeys →
      UniqueKeys incoming → (merge base incoming).UniqueKeys) ∧
      ∀ (base : Document) (key : String) (v : Value), base.UniqueKeys → v.UniqueKeys →
        (mergeEntry base key v).UniqueKeys := by
  apply merge.mutual_induct
  case case1 =>
    intro base key incoming existing found ih unique more
    rw [mergeEntry, found]
    exact unique.set key (uniqueKeys_document_iff.2
      (ih (unique.inner found) (uniqueKeys_document_iff.1 more)))
  case case2 =>
    intro base key incoming other unique more
    rw [mergeEntry]
    split
    · next existing found => exact absurd found (other existing)
    · exact unique.set key more
  case case3 =>
    intro v base key other unique more
    rw [mergeEntry.eq_2 base key v other]
    exact unique.set key more
  case case4 =>
    intro base unique _
    rwa [merge]
  case case5 =>
    intro base key v incoming ih_entry ih unique more
    obtain ⟨first, others⟩ := List.forall_mem_cons.1 more.values
    rw [merge]
    exact ih (ih_entry unique first) ⟨(List.nodup_cons.1 more.keys).2, others⟩

theorem UniqueKeys.merge (ha : a.UniqueKeys) (hb : b.UniqueKeys) : (a.merge b).UniqueKeys :=
  uniqueKeys_merge_and_mergeEntry.1 a b ha hb

/-! ## Nested documents -/

/-- The document at a path of keys, through nested documents. -/
def documentAt? (doc : Document) : List String → Option Document
  | [] => some doc
  | key :: path =>
    match get? key doc with
    | some (.document inner) => documentAt? inner path
    | _ => none

/-- A merge merges the documents at every path. -/
theorem documentAt?_merge {path : List String} {x y : Document} (hb : b.UniqueKeys)
    (inBase : documentAt? a path = some x) (incoming : documentAt? b path = some y) :
    documentAt? (merge a b) path = some (merge x y) ∧ y.UniqueKeys := by
  induction path generalizing a b with
  | nil =>
    cases inBase
    cases incoming
    exact ⟨rfl, hb⟩
  | cons key path ih =>
    rw [documentAt?] at inBase incoming
    split at inBase
    · next a' earlier =>
      split at incoming
      · next b' more =>
        have merged : get? key (merge a b) = some (.document (merge a' b')) := by
          rw [get?_merge a hb.keys, earlier, more, mergedValue?_documents]
        rw [documentAt?, merged]
        exact ih (hb.inner more) inBase incoming
      · cases incoming
    · cases inBase

/-! ## Merging again -/

theorem merge_nil (a : Document) : merge a [] = a := by rw [merge]

theorem nil_merge (ha : a.UniqueKeys) : merge [] a = a := by
  refine ext_get? (UniqueKeys.merge uniqueKeys_nil ha).keys ?_ fun k => ?_
  · rw [keys_merge [] ha.keys]
    simp [keys]
  · rw [get?_merge [] ha.keys, get?, mergedValue?_none_left]

theorem merge_self {a : Document} (ha : a.UniqueKeys) : merge a a = a := by
  refine ext_get? (ha.merge ha).keys ?_ fun k => ?_
  · rw [keys_merge a ha.keys]
    simp
  · rw [get?_merge a ha.keys]
    cases found : get? k a with
    | none => rfl
    | some v =>
      by_cases nested : ∃ x, v = .document x
      · obtain ⟨x, rfl⟩ := nested
        have := sizeOf_lt_of_get? found
        rw [mergedValue?_documents, merge_self (ha.inner found)]
      · exact mergedValue?_of_not_document (.inl fun x same => nested ⟨x, same⟩)
termination_by sizeOf a

/-- What has been merged in already changes nothing. -/
theorem merge_merge_self {a b : Document} (ha : a.UniqueKeys) (hb : b.UniqueKeys) :
    merge (merge a b) b = merge a b := by
  refine ext_get? ((ha.merge hb).merge hb).keys ?_ fun k => ?_
  · have old : (keys b).filter (· ∉ keys (merge a b)) = [] := by
      refine List.filter_eq_nil_iff.2 fun k member => ?_
      simp [(mem_keys_merge a hb.keys).2 (.inr member)]
    rw [keys_merge (merge a b) hb.keys, old, List.append_nil]
  · rw [get?_merge (merge a b) hb.keys, get?_merge a hb.keys]
    cases more : get? k b with
    | none => simp
    | some w =>
      by_cases nested : ∃ y, w = .document y
      · obtain ⟨y, rfl⟩ := nested
        cases earlier : get? k a with
        | none => rw [mergedValue?_none_left, mergedValue?_documents, merge_self (hb.inner more)]
        | some v =>
          by_cases both : ∃ x, v = .document x
          · obtain ⟨x, rfl⟩ := both
            have := sizeOf_lt_of_get? earlier
            rw [mergedValue?_documents, mergedValue?_documents,
              merge_merge_self (ha.inner earlier) (hb.inner more)]
          · rw [mergedValue?_of_not_document (.inl fun x same => both ⟨x, same⟩),
              mergedValue?_documents, merge_self (hb.inner more)]
      · have replaces : ∀ v, mergedValue? (some v) (some w) = some w := fun v =>
          mergedValue?_of_not_document (.inr fun y same => nested ⟨y, same⟩)
        cases get? k a <;> simp [replaces]
termination_by sizeOf a

/-! ## Associativity -/

theorem getPath?_cons {doc inner : Document} (found : get? key doc = some (.document inner))
    {path : List String} (more : path ≠ []) : getPath? doc (key :: path) = getPath? inner path := by
  obtain ⟨k, path, rfl⟩ := List.exists_cons_of_ne_nil more
  simp [getPath?, found, Value.document?]

theorem exists_document_of_getPath?_cons {doc : Document} {path : List String} {v : Value}
    (more : path ≠ []) (h : getPath? doc (key :: path) = some v) :
    ∃ inner, get? key doc = some (.document inner) ∧ getPath? inner path = some v := by
  obtain ⟨k, path, rfl⟩ := List.exists_cons_of_ne_nil more
  cases found : get? key doc with
  | none => simp [getPath?, found] at h
  | some w =>
    cases w with
    | document inner => exact ⟨inner, rfl, (getPath?_cons found more).symm.trans h⟩
    | _ => simp [getPath?, found, Value.document?] at h

/-- Where a value that is no document stands between two documents, the last of them counts when it
replaces the value, and their merge when it has already replaced it.  The two are the same. -/
def AgreesAround (a b c : Document) : Prop :=
  ∀ path x v z, getPath? a path = some (.document x) → getPath? b path = some v →
    getPath? c path = some (.document z) → (∀ y, v ≠ .document y) → merge x z = z

theorem AgreesAround.inner {x y z : Document} (h : AgreesAround a b c)
    (inA : get? key a = some (.document x)) (inB : get? key b = some (.document y))
    (inC : get? key c = some (.document z)) : AgreesAround x y z := by
  intro path x' v z' first second third
  have more : path ≠ [] := by
    rintro rfl
    cases first
  rw [← getPath?_cons inA more] at first
  rw [← getPath?_cons inB more] at second
  rw [← getPath?_cons inC more] at third
  exact h (key :: path) x' v z' first second third

theorem keys_merge_merge (a : Document) {b c : Document} (hb : b.keys.Nodup) (hc : c.UniqueKeys) :
    keys (merge (merge a b) c) =
      keys a ++ (keys b ++ (keys c).filter (· ∉ keys b)).filter (· ∉ keys a) := by
  have later : (keys c).filter (· ∉ keys (merge a b)) =
      ((keys c).filter (· ∉ keys b)).filter (· ∉ keys a) := by
    rw [List.filter_filter]
    refine List.filter_congr fun k _ => ?_
    simp [mem_keys_merge a hb]
  rw [keys_merge _ hc.keys, later, keys_merge a hb, List.filter_append, List.append_assoc]

theorem mergedValue?_assoc_of_not_document {v w : Value} {u : Option Value}
    (h : ∀ y, w ≠ .document y) (agrees : ∀ x z, v = .document x → u = some (.document z) →
      merge x z = z) :
    mergedValue? (mergedValue? (some v) (some w)) u =
      mergedValue? (some v) (mergedValue? (some w) u) := by
  rw [mergedValue?_of_not_document (.inr h)]
  cases u with
  | none => simp [mergedValue?_of_not_document (.inr h)]
  | some u =>
    rw [mergedValue?_of_not_document (.inl h)]
    by_cases both : (∃ x, v = .document x) ∧ ∃ z, u = .document z
    · obtain ⟨⟨x, rfl⟩, z, rfl⟩ := both
      rw [mergedValue?_documents, agrees x z rfl rfl]
    · rw [mergedValue?_of_not_document]
      by_cases first : ∃ x, v = .document x
      · exact .inr fun z same => both ⟨first, z, same⟩
      · exact .inl fun x same => first ⟨x, same⟩

theorem merge_assoc_of_agreesAround {a b c : Document} (ha : a.UniqueKeys) (hb : b.UniqueKeys)
    (hc : c.UniqueKeys) (h : AgreesAround a b c) :
    merge (merge a b) c = merge a (merge b c) := by
  refine ext_get? ((ha.merge hb).merge hc).keys ?_ fun k => ?_
  · rw [keys_merge_merge a hb.keys hc, keys_merge a (hb.merge hc).keys, keys_merge b hc.keys]
  · rw [get?_merge _ hc.keys, get?_merge a hb.keys, get?_merge a (hb.merge hc).keys,
      get?_merge b hc.keys]
    cases inA : get? k a with
    | none => simp
    | some v =>
      cases inB : get? k b with
      | none => simp
      | some w =>
        by_cases second : ∃ y, w = .document y
        · obtain ⟨y, rfl⟩ := second
          cases inC : get? k c with
          | none => simp
          | some u =>
            by_cases third : ∃ z, u = .document z
            · obtain ⟨z, rfl⟩ := third
              by_cases first : ∃ x, v = .document x
              · obtain ⟨x, rfl⟩ := first
                have := sizeOf_lt_of_get? inA
                simp only [mergedValue?_documents]
                rw [merge_assoc_of_agreesAround (ha.inner inA) (hb.inner inB) (hc.inner inC)
                  (h.inner inA inB inC)]
              · have replaces : ∀ w, mergedValue? (some v) (some w) = some w := fun w =>
                  mergedValue?_of_not_document (.inl fun x same => first ⟨x, same⟩)
                rw [replaces, mergedValue?_documents, replaces]
            · have replaces : ∀ v, mergedValue? (some v) (some u) = some u := fun v =>
                mergedValue?_of_not_document (.inr fun z same => third ⟨z, same⟩)
              rw [replaces (.document y), replaces v]
              cases merged : mergedValue? (some v) (some (.document y)) with
              | none => rfl
              | some w => exact replaces w
        · refine mergedValue?_assoc_of_not_document (fun y same => second ⟨y, same⟩) ?_
          rintro x z rfl inC
          refine h [k] x w z ?_ ?_ ?_ fun y same => second ⟨y, same⟩
          · rw [getPath?, inA]
          · rw [getPath?, inB]
          · rw [getPath?, inC]
termination_by sizeOf a

/-- What an association of merges says about one key. -/
theorem mergedValue?_assoc_of_merge_assoc (hb : b.UniqueKeys) (hc : c.UniqueKeys)
    (same : merge (merge a b) c = merge a (merge b c)) (k : String) :
    mergedValue? (mergedValue? (get? k a) (get? k b)) (get? k c) =
      mergedValue? (get? k a) (mergedValue? (get? k b) (get? k c)) := by
  have alike := congrArg (get? k) same
  rwa [get?_merge _ hc.keys, get?_merge a hb.keys, get?_merge a (hb.merge hc).keys,
    get?_merge b hc.keys] at alike

theorem agreesAround_of_merge_assoc (hb : b.UniqueKeys) (hc : c.UniqueKeys)
    (same : merge (merge a b) c = merge a (merge b c)) : AgreesAround a b c := by
  intro path
  induction path generalizing a b c with
  | nil =>
    intro x v z first
    cases first
  | cons key path ih =>
    intro x v z first second third between
    have under := mergedValue?_assoc_of_merge_assoc hb hc same key
    by_cases last : path = []
    · subst last
      rw [getPath?] at first second third
      rw [first, second, third, mergedValue?_of_not_document (.inr between),
        mergedValue?_of_not_document (.inl between), mergedValue?_documents] at under
      simpa using under.symm
    · obtain ⟨a', inA, first⟩ := exists_document_of_getPath?_cons last first
      obtain ⟨b', inB, second⟩ := exists_document_of_getPath?_cons last second
      obtain ⟨c', inC, third⟩ := exists_document_of_getPath?_cons last third
      have inner : merge (merge a' b') c' = merge a' (merge b' c') := by
        simpa only [inA, inB, inC, mergedValue?_documents, Option.some.injEq,
          Value.document.injEq] using under
      exact ih (hb.inner inB) (hc.inner inC) inner x v z first second third between

/-- Merging is associative exactly on documents that agree around the values in between. -/
theorem merge_assoc_iff (ha : a.UniqueKeys) (hb : b.UniqueKeys) (hc : c.UniqueKeys) :
    merge (merge a b) c = merge a (merge b c) ↔ AgreesAround a b c :=
  ⟨agreesAround_of_merge_assoc hb hc, merge_assoc_of_agreesAround ha hb hc⟩

/-! ## The laws -/

/-- The laws of merging, for documents with unique keys at every level.

* At every path at which both sides hold a document, the merge holds the merge of the two: its keys
  are those of the base in their order and then the new ones in theirs, and each key leads to the
  merge of two documents, else to the incoming value, else to the one of the base.
* Keys stay unique at every level.
* The empty document is neutral on either side.
* Merging a document a second time changes nothing, nor does merging a document into itself.
* Merging is associative if there is no path at which the first and the last document hold a
  document and the one in between a value that is none. -/
theorem merge_laws (a b c : Document) (ha : a.UniqueKeys) (hb : b.UniqueKeys) (hc : c.UniqueKeys) :
    (∀ path x y, documentAt? a path = some x → documentAt? b path = some y →
      documentAt? (merge a b) path = some (merge x y) ∧
        keys (merge x y) = keys x ++ (keys y).filter (· ∉ keys x) ∧
        ∀ key, get? key (merge x y) = mergedValue? (get? key x) (get? key y)) ∧
      (merge a b).UniqueKeys ∧
      (merge a [] = a ∧ merge [] a = a) ∧
      (merge (merge a b) b = merge a b ∧ merge a a = a) ∧
      ((∀ path x v z, getPath? a path = some (.document x) → getPath? b path = some v →
          getPath? c path = some (.document z) → ∃ y, v = .document y) →
        merge (merge a b) c = merge a (merge b c)) := by
  refine ⟨?_, ha.merge hb, ⟨merge_nil a, nil_merge ha⟩, ⟨merge_merge_self ha hb, merge_self ha⟩, ?_⟩
  · intro path x y inBase incoming
    obtain ⟨merged, unique⟩ := documentAt?_merge hb inBase incoming
    exact ⟨merged, keys_merge x unique.keys, get?_merge x unique.keys⟩
  · intro apart
    refine (merge_assoc_iff ha hb hc).2 fun path x v z first second third between => ?_
    obtain ⟨y, same⟩ := apart path x v z first second third
    exact absurd same (between y)

/-- Nested documents under one key, whose keys come in different orders. -/
theorem merge_laws_of_nested :
    let a : Document :=
      [("k", .document [("x", .text "1"), ("y", .boolean true)]), ("t", .text "a")]
    let b : Document := [("n", .text "b"), ("k", .document [("z", .text "2"), ("x", .text "3")])]
    let c : Document := [("k", .document [("z", .document [])]), ("n", .document [])]
    a.UniqueKeys ∧ b.UniqueKeys ∧ c.UniqueKeys ∧ merge (merge a b) b = merge a b ∧
      keys (merge a b) = ["k", "t", "n"] ∧ merge (merge a b) c = merge a (merge b c) := by
  intro a b c
  have ha : a.UniqueKeys := ⟨by decide, by simp [a, Value.UniqueKeys, entriesUnique]⟩
  have hb : b.UniqueKeys := ⟨by decide, by simp [b, Value.UniqueKeys, entriesUnique]⟩
  have hc : c.UniqueKeys := ⟨by decide, by simp [c, Value.UniqueKeys, entriesUnique]⟩
  obtain ⟨levels, -, -, ⟨again, -⟩, associative⟩ := merge_laws a b c ha hb hc
  refine ⟨ha, hb, hc, again, ?_, associative ?_⟩
  · exact (levels [] a b rfl rfl).2.1
  · -- The first document holds one nested document, under a key under which the second has one too.
    have only : ∀ key x, get? key a = some (.document x) →
        key = "k" ∧ x = [("x", .text "1"), ("y", .boolean true)] := by
      intro key x found
      simp only [a, get?] at found
      grind
    intro path x v z first second third
    rcases path with _ | ⟨key, path⟩
    · cases first
    by_cases last : path = []
    · subst last
      rw [getPath?] at first second
      obtain ⟨rfl, -⟩ := only key x first
      cases second
      exact ⟨_, rfl⟩
    · obtain ⟨inner, found, first⟩ := exists_document_of_getPath?_cons last first
      obtain ⟨rfl, rfl⟩ := only key inner found
      obtain ⟨l, path, rfl⟩ := List.exists_cons_of_ne_nil last
      by_cases last : path = []
      · subst last
        simp only [getPath?, get?] at first
        grind
      · obtain ⟨inner, found, -⟩ := exists_document_of_getPath?_cons last first
        simp only [get?] at found
        grind

end Document

end BuildScript
