import BuildScript.Scope

/-!
# Well-formed documents

What every document that is read keeps to: keys and kinds are never empty, records stand only under
the key that makes them, and blocks are nested only as deep as there is room for.  Setting, adding
and merging values lead from well-formed documents to well-formed documents.
-/

namespace BuildScript

/-! ## Records -/

/-- A word over ASCII letters, digits, `_` and `-` that begins no control statement. -/
def IsKind (kind : String) : Prop :=
  kind ≠ "" ∧ (∀ c ∈ kind.toList, c.isAlphanum = true ∨ c = '_' ∨ c = '-') ∧
    kind ∉ ["if", "else", "def", "for"]

/-- An ASCII letter or `_`, and behind it ASCII letters, digits and `_`. -/
def IsAttributeName (name : String) : Prop :=
  ∃ c r, name.toList = c :: r ∧ (c.isAlpha = true ∨ c = '_') ∧
    ∀ d ∈ r, d.isAlphanum = true ∨ d = '_'

structure Dependency.WellFormed (d : Dependency) : Prop where
  kind : IsKind d.kind
  excludes : ∀ rule ∈ d.excludes, rule ≠ [] ∧ ∀ pair ∈ rule, IsAttributeName pair.1

/-! ## Values -/

/-- Where a value stands. -/
inductive ValuePlace where
  /-- Under a key. -/
  | entry (key : String)
  /-- In the sequence under a key. -/
  | item (key : String)
  /-- In the repository entry of a type. -/
  | data (type : String)
  /-- In a sequence at any other place. -/
  | inner

/-- Where the items of a sequence stand. -/
def ValuePlace.ofItems : ValuePlace → ValuePlace
  | entry key => item key
  | _ => inner

/-- The name that tells which records may stand there. -/
def ValuePlace.name? : ValuePlace → Option String
  | entry key => some key
  | item key => some key
  | data type => some type
  | inner => none

mutual

/-- Everything in the value is as it must be at its place.  The data of an entry is no empty text. -/
def Value.WellFormed (place : ValuePlace) : Value → Prop
  | .text s => s = "" → ∀ type, place ≠ .data type
  | .boolean _ => True
  | .sequence items => itemsWellFormed place.ofItems items
  | .document doc => entriesWellFormed doc
  | .dependencies declarations =>
    place.name? = some "dependencies" ∧ ∀ d ∈ declarations, d.WellFormed
  | .repositories entries => place.name? = some "repositories" ∧ repositoriesWellFormed entries

def itemsWellFormed (place : ValuePlace) : List Value → Prop
  | [] => True
  | v :: items => v.WellFormed place ∧ itemsWellFormed place items

def entriesWellFormed : List (String × Value) → Prop
  | [] => True
  | (key, v) :: doc => (key ≠ "" ∧ v.WellFormed (.entry key)) ∧ entriesWellFormed doc

/-- An entry without data, which is of type `unknown`, has a name; one with data has a type. -/
def repositoriesWellFormed : List (Repository Value) → Prop
  | [] => True
  | .unknown name :: entries => name ≠ "" ∧ repositoriesWellFormed entries
  | .named type data :: entries =>
    (type ≠ "" ∧ data.WellFormed (.data type)) ∧ repositoriesWellFormed entries

end

mutual

/-- How many blocks are nested in each other in the value. -/
def Value.blockDepth : Value → Nat
  | .text _ => 0
  | .boolean _ => 0
  | .sequence items => itemsBlockDepth items
  | .document doc => entriesBlockDepth doc + 1
  | .dependencies _ => 1
  | .repositories entries => repositoriesBlockDepth entries + 1

def itemsBlockDepth : List Value → Nat
  | [] => 0
  | v :: items => max v.blockDepth (itemsBlockDepth items)

def entriesBlockDepth : List (String × Value) → Nat
  | [] => 0
  | (_, v) :: doc => max v.blockDepth (entriesBlockDepth doc)

def repositoriesBlockDepth : List (Repository Value) → Nat
  | [] => 0
  | .unknown _ :: entries => repositoriesBlockDepth entries
  | .named _ data :: entries => max data.blockDepth (repositoriesBlockDepth entries)

end

/-- Every key and every value of the document is as it must be, at every depth. -/
def Document.WellFormed (doc : Document) : Prop :=
  ∀ entry ∈ doc, entry.1 ≠ "" ∧ entry.2.WellFormed (.entry entry.1)

/-! ## Room for blocks -/

/-- The value is well-formed and has no more blocks nested in each other than there is room for. -/
structure Value.Fits (room : Nat) (place : ValuePlace) (v : Value) : Prop where
  wellFormed : v.WellFormed place
  depth : v.blockDepth ≤ room

def Document.Fits (room : Nat) (doc : Document) : Prop :=
  ∀ entry ∈ doc, entry.1 ≠ "" ∧ entry.2.Fits room (.entry entry.1)

def Repository.Fits (room : Nat) : Repository Value → Prop
  | unknown name => name ≠ ""
  | named type data => type ≠ "" ∧ data.Fits room (.data type)

variable {room : Nat} {place : ValuePlace} {key : String}

namespace Value

theorem fits_iff {v : Value} : v.Fits room place ↔ v.WellFormed place ∧ v.blockDepth ≤ room :=
  ⟨fun fits => ⟨fits.wellFormed, fits.depth⟩, fun both => ⟨both.1, both.2⟩⟩

/-- What is asked of the first of several and of the others is asked of each for itself. -/
theorem first_and_others {named first others depth depths : Prop} :
    ((named ∧ first) ∧ others) ∧ depth ∧ depths ↔ (named ∧ first ∧ depth) ∧ others ∧ depths :=
  and_and_and_comm.trans (and_congr_left' and_assoc)

theorem fits_text {s : String} (h : ∀ type, place ≠ .data type) : (text s).Fits room place := by
  constructor
  · rw [WellFormed]
    exact fun _ => h
  · rw [blockDepth]
    exact Nat.zero_le room

theorem fits_boolean (b : Bool) : (boolean b).Fits room place := by
  constructor
  · rw [WellFormed]
    trivial
  · rw [blockDepth]
    exact Nat.zero_le room

theorem fits_sequence_iff {items : List Value} :
    (sequence items).Fits room place ↔ ∀ v ∈ items, v.Fits room place.ofItems := by
  have items_iff : itemsWellFormed place.ofItems items ∧ itemsBlockDepth items ≤ room ↔
      ∀ v ∈ items, v.Fits room place.ofItems := by
    induction items with
    | nil => simp [itemsWellFormed, itemsBlockDepth]
    | cons v items ih =>
      rw [itemsWellFormed, itemsBlockDepth, List.forall_mem_cons, ← ih, fits_iff, Nat.max_le]
      exact and_and_and_comm
  rw [fits_iff, WellFormed, blockDepth, items_iff]

theorem entries_iff {doc : Document} :
    entriesWellFormed doc ∧ entriesBlockDepth doc ≤ room ↔ doc.Fits room := by
  induction doc with
  | nil => simp [entriesWellFormed, entriesBlockDepth, Document.Fits]
  | cons entry doc ih =>
    obtain ⟨key, v⟩ := entry
    rw [Document.Fits, List.forall_mem_cons]
    rw [Document.Fits] at ih
    rw [entriesWellFormed, entriesBlockDepth, ← ih, fits_iff, Nat.max_le]
    exact first_and_others

theorem fits_document_iff {doc : Document} :
    (document doc).Fits (room + 1) place ↔ doc.Fits room := by
  rw [fits_iff, WellFormed, blockDepth, Nat.add_le_add_iff_right, entries_iff]

/-- A nested document takes room. -/
theorem Fits.room_pos {doc : Document} (h : (document doc).Fits room place) :
    ∃ inner, room = inner + 1 := by
  have depth := h.depth
  rw [blockDepth] at depth
  exact Nat.exists_eq_add_of_le' (Nat.le_trans (Nat.le_add_left 1 _) depth)

theorem fits_dependencies_iff {declarations : List Dependency} :
    (dependencies declarations).Fits room place ↔
      1 ≤ room ∧ place.name? = some "dependencies" ∧ ∀ d ∈ declarations, d.WellFormed := by
  rw [fits_iff, WellFormed, blockDepth]
  exact and_comm

theorem repositories_iff {entries : List (Repository Value)} :
    repositoriesWellFormed entries ∧ repositoriesBlockDepth entries ≤ room ↔
      ∀ entry ∈ entries, entry.Fits room := by
  induction entries with
  | nil => simp [repositoriesWellFormed, repositoriesBlockDepth]
  | cons entry entries ih =>
    rw [List.forall_mem_cons, ← ih]
    cases entry with
    | unknown name =>
      rw [repositoriesWellFormed, repositoriesBlockDepth, Repository.Fits, and_assoc]
    | named type data =>
      rw [repositoriesWellFormed, repositoriesBlockDepth, Repository.Fits, fits_iff, Nat.max_le]
      exact first_and_others

theorem fits_repositories_iff {entries : List (Repository Value)} :
    (repositories entries).Fits room place ↔
      1 ≤ room ∧ place.name? = some "repositories" ∧
        ∀ entry ∈ entries, entry.Fits (room - 1) := by
  have room_iff {depth : Nat} : depth + 1 ≤ room ↔ 1 ≤ room ∧ depth ≤ room - 1 := by omega
  rw [← repositories_iff, fits_iff, WellFormed, blockDepth, room_iff, and_left_comm, and_assoc]

/-- A value fits at another place if the same records may stand there, its items stand alike, and it
is no empty text as the data of an entry. -/
theorem Fits.move {v : Value} {place' : ValuePlace} (h : v.Fits room place)
    (name : place'.name? = place.name?)
    (items : (∀ items, v ≠ .sequence items) ∨ place'.ofItems = place.ofItems)
    (text : v.isEmptyText = false ∨ ∀ type, place' ≠ .data type) : v.Fits room place' := by
  cases v with
  | text s =>
    refine ⟨?_, h.depth⟩
    rw [WellFormed]
    rintro rfl
    exact text.resolve_left (by simp [isEmptyText])
  | boolean b => exact fits_boolean b
  | sequence inner =>
    rw [fits_sequence_iff, items.resolve_left fun single => single inner rfl]
    exact fits_sequence_iff.1 h
  | document doc =>
    obtain ⟨inner, rfl⟩ := h.room_pos
    exact fits_document_iff.2 (fits_document_iff.1 h)
  | dependencies declarations =>
    rw [fits_dependencies_iff, name]
    exact fits_dependencies_iff.1 h
  | repositories entries =>
    rw [fits_repositories_iff, name]
    exact fits_repositories_iff.1 h

/-- A value that is no sequence may as well be an item of the sequence under its key. -/
theorem Fits.item {v : Value} (h : v.Fits room (.entry key))
    (single : ∀ items, v ≠ .sequence items) : v.Fits room (.item key) :=
  h.move rfl (.inl single) (.inr (by simp))

/-- An item that is no empty text may as well be the data of an entry. -/
theorem Fits.data {v : Value} (h : v.Fits room (.item key)) (notEmpty : v.isEmptyText = false) :
    v.Fits room (.data key) :=
  h.move rfl (.inr rfl) (.inl notEmpty)

end Value

/-! ## Setting and adding -/

namespace Document

open Value

variable {doc : Document} {v : Value}

theorem Fits.get? (h : doc.Fits room) (found : doc.get? key = some v) : v.Fits room (.entry key) := by
  induction doc with
  | nil => cases found
  | cons entry doc ih =>
    obtain ⟨k, w⟩ := entry
    obtain ⟨first, others⟩ := List.forall_mem_cons.1 h
    rw [Document.get?] at found
    split at found
    · next same =>
      cases found
      exact same ▸ first.2
    · exact ih others found

theorem Fits.set (h : doc.Fits room) (named : key ≠ "") (fits : v.Fits room (.entry key)) :
    (doc.set key v).Fits room := by
  induction doc with
  | nil => exact List.forall_mem_singleton.2 ⟨named, fits⟩
  | cons entry doc ih =>
    obtain ⟨k, w⟩ := entry
    obtain ⟨first, others⟩ := List.forall_mem_cons.1 h
    rw [Document.set]
    split
    · next same => exact List.forall_mem_cons.2 ⟨⟨same ▸ named, same ▸ fits⟩, others⟩
    · exact List.forall_mem_cons.2 ⟨first, ih others⟩

/-- The value that is added must fit under its key and, should the key be taken, as an item of the
sequence that gathers its values. -/
theorem Fits.add (h : doc.Fits room) (named : key ≠ "") (fits : v.Fits room (.entry key))
    (item : v.Fits room (.item key)) : (doc.add key v).Fits room := by
  unfold Document.add
  split
  · exact h.set named fits
  · next items found =>
    refine h.set named (fits_sequence_iff.2 fun w hw => ?_)
    rcases List.mem_append.1 hw with earlier | last
    · exact fits_sequence_iff.1 (h.get? found) w earlier
    · exact List.mem_singleton.1 last ▸ item
  · next earlier single found =>
    refine h.set named (fits_sequence_iff.2 fun w hw => ?_)
    rcases List.mem_cons.1 hw with rfl | last
    · exact (h.get? found).item single
    · exact List.mem_singleton.1 last ▸ item

/-! ## Merging -/

theorem fits_merge_and_mergeEntry :
    (∀ (base : Document) (incoming : List (String × Value)), ∀ room, base.Fits room →
      Document.Fits room incoming → (merge base incoming).Fits room) ∧
      ∀ (base : Document) (key : String) (v : Value), ∀ room, base.Fits room → key ≠ "" →
        v.Fits room (.entry key) → (mergeEntry base key v).Fits room := by
  apply merge.mutual_induct
  case case1 =>
    intro base key incoming existing found ih room fits named more
    obtain ⟨inner, rfl⟩ := more.room_pos
    rw [mergeEntry, found]
    exact fits.set named (fits_document_iff.2
      (ih inner (fits_document_iff.1 (fits.get? found)) (fits_document_iff.1 more)))
  case case2 =>
    intro base key incoming other room fits named more
    rw [mergeEntry]
    split
    · next existing found => exact absurd found (other existing)
    · exact fits.set named more
  case case3 =>
    intro v base key other room fits named more
    rw [mergeEntry.eq_2 base key v other]
    exact fits.set named more
  case case4 =>
    intro base room fits _
    rwa [merge]
  case case5 =>
    intro base key v incoming ih_entry ih room fits more
    obtain ⟨first, others⟩ := List.forall_mem_cons.1 more
    rw [merge]
    exact ih room (ih_entry room fits first.1 first.2) others

theorem Fits.merge {incoming : Document} (h : doc.Fits room) (more : incoming.Fits room) :
    (doc.merge incoming).Fits room := fits_merge_and_mergeEntry.1 doc incoming room h more

theorem Fits.joinBlock (h : doc.Fits room) (named : key ≠ "") (fits : v.Fits room (.entry key)) :
    (doc.joinBlock key v).Fits room := by
  unfold Document.joinBlock
  split
  · next incoming existing found =>
    obtain ⟨inner, rfl⟩ := fits.room_pos
    have earlier := fits_document_iff.1 (h.get? found)
    exact h.set named (fits_document_iff.2 (earlier.merge (fits_document_iff.1 fits)))
  · next more existing found =>
    obtain ⟨some_, place, earlier⟩ := fits_dependencies_iff.1 (h.get? found)
    refine h.set named (fits_dependencies_iff.2 ⟨some_, place, fun d hd => ?_⟩)
    rcases List.mem_append.1 hd with hd | hd
    · exact earlier d hd
    · exact (fits_dependencies_iff.1 fits).2.2 d hd
  · next more existing found =>
    obtain ⟨some_, place, earlier⟩ := fits_repositories_iff.1 (h.get? found)
    refine h.set named (fits_repositories_iff.2 ⟨some_, place, fun entry he => ?_⟩)
    rcases List.mem_append.1 he with he | he
    · exact earlier entry he
    · exact (fits_repositories_iff.1 fits).2.2 entry he
  · exact h.set named fits

end Document

end BuildScript
