import BuildScript.Proofs.Merge.Lines
import BuildScript.Proofs.LineBreaks.Declarations

/-!
# Documents with other line breaks

The document of a script with carriage returns, made from the document of the script without them: a
carriage return stands before every line feed of a key or a text, and the line feeds in dependencies
are repeated.  Setting, adding, merging and joining values take no notice of it.
-/

namespace BuildScript

open Text

/-! ## Values -/

mutual

/-- The value with a carriage return before every line feed in it; in the texts of dependencies the
line feeds are repeated. -/
def Value.crlf : Value → Value
  | .text s => .text (Breaks.crlf.text s)
  | .boolean b => .boolean b
  | .sequence items => .sequence (crlfItems items)
  | .document doc => .document (crlfEntries doc)
  | .dependencies declarations => .dependencies (declarations.map Dependency.doubled)
  | .repositories entries => .repositories (crlfRepositories entries)

def crlfItems : List Value → List Value
  | [] => []
  | v :: items => v.crlf :: crlfItems items

def crlfEntries : List (String × Value) → List (String × Value)
  | [] => []
  | (key, v) :: doc => (Breaks.crlf.text key, v.crlf) :: crlfEntries doc

def crlfRepositories : List (Repository Value) → List (Repository Value)
  | [] => []
  | .unknown name :: entries => .unknown (Breaks.crlf.text name) :: crlfRepositories entries
  | .named type data :: entries =>
    .named (Breaks.crlf.text type) data.crlf :: crlfRepositories entries

end

mutual

/-- No key and no text in the value runs over several lines. -/
def Value.isOneLine : Value → Bool
  | .text s => !s.toList.contains '\n'
  | .boolean _ => true
  | .sequence items => itemsAreOneLine items
  | .document doc => entriesAreOneLine doc
  | .dependencies declarations => declarations.all Dependency.isOneLine
  | .repositories entries => repositoriesAreOneLine entries

def itemsAreOneLine : List Value → Bool
  | [] => true
  | v :: items => v.isOneLine && itemsAreOneLine items

def entriesAreOneLine : List (String × Value) → Bool
  | [] => true
  | (key, v) :: doc => !key.toList.contains '\n' && v.isOneLine && entriesAreOneLine doc

def repositoriesAreOneLine : List (Repository Value) → Bool
  | [] => true
  | .unknown name :: entries => !name.toList.contains '\n' && repositoriesAreOneLine entries
  | .named type data :: entries =>
    !type.toList.contains '\n' && data.isOneLine && repositoriesAreOneLine entries

end

/-- The document with a carriage return before every line feed in it. -/
def Document.crlf (doc : Document) : Document := crlfEntries doc

/-- No key and no text in the document runs over several lines. -/
def Document.isOneLine (doc : Document) : Bool := entriesAreOneLine doc

theorem crlfText_eq_self_iff {s : String} :
    Breaks.crlf.text s = s ↔ (!s.toList.contains '\n') = true := by
  rw [text_eq_self_iff (by decide)]
  simp

theorem doubled_eq_self_iff {declarations : List Dependency} :
    declarations.map Dependency.doubled = declarations ↔
      declarations.all Dependency.isOneLine = true := by
  induction declarations with
  | nil => simp
  | cons d declarations ih =>
    rw [List.map_cons, List.cons.injEq, d.doubled_eq_self_iff, ih, List.all_cons, Bool.and_eq_true]

mutual

/-- Only a value whose keys and texts are texts of one line stays the same. -/
theorem Value.crlf_eq_self_iff : (v : Value) → (v.crlf = v ↔ v.isOneLine = true)
  | .text s => by rw [Value.crlf, Value.isOneLine, Value.text.injEq, crlfText_eq_self_iff]
  | .boolean b => by simp [Value.crlf, Value.isOneLine]
  | .sequence items => by
    rw [Value.crlf, Value.isOneLine, Value.sequence.injEq, crlfItems_eq_self_iff items]
  | .document doc => by
    rw [Value.crlf, Value.isOneLine, Value.document.injEq, crlfEntries_eq_self_iff doc]
  | .dependencies declarations => by
    rw [Value.crlf, Value.isOneLine, Value.dependencies.injEq, doubled_eq_self_iff]
  | .repositories entries => by
    rw [Value.crlf, Value.isOneLine, Value.repositories.injEq, crlfRepositories_eq_self_iff entries]

theorem crlfItems_eq_self_iff :
    (items : List Value) → (crlfItems items = items ↔ itemsAreOneLine items = true)
  | [] => by simp [crlfItems, itemsAreOneLine]
  | v :: items => by
    rw [crlfItems, itemsAreOneLine, List.cons.injEq, v.crlf_eq_self_iff,
      crlfItems_eq_self_iff items, Bool.and_eq_true]

theorem crlfEntries_eq_self_iff :
    (doc : List (String × Value)) → (crlfEntries doc = doc ↔ entriesAreOneLine doc = true)
  | [] => by simp [crlfEntries, entriesAreOneLine]
  | (key, v) :: doc => by
    rw [crlfEntries, entriesAreOneLine, List.cons.injEq, Prod.mk.injEq, crlfText_eq_self_iff,
      v.crlf_eq_self_iff, crlfEntries_eq_self_iff doc, Bool.and_eq_true, Bool.and_eq_true]

theorem crlfRepositories_eq_self_iff : (entries : List (Repository Value)) →
    (crlfRepositories entries = entries ↔ repositoriesAreOneLine entries = true)
  | [] => by simp [crlfRepositories, repositoriesAreOneLine]
  | .unknown name :: entries => by
    rw [crlfRepositories, repositoriesAreOneLine, List.cons.injEq, Repository.unknown.injEq,
      crlfText_eq_self_iff, crlfRepositories_eq_self_iff entries, Bool.and_eq_true]
  | .named type data :: entries => by
    rw [crlfRepositories, repositoriesAreOneLine, List.cons.injEq, Repository.named.injEq,
      crlfText_eq_self_iff, data.crlf_eq_self_iff, crlfRepositories_eq_self_iff entries,
      Bool.and_eq_true, Bool.and_eq_true]

end

theorem Document.crlf_eq_self_iff (doc : Document) : doc.crlf = doc ↔ doc.isOneLine = true :=
  crlfEntries_eq_self_iff doc

/-- The entry with a carriage return before every line feed in it. -/
def Repository.crlf : Repository Value → Repository Value
  | .unknown name => .unknown (Breaks.crlf.text name)
  | .named type data => .named (Breaks.crlf.text type) data.crlf

theorem crlfItems_eq_map (items : List Value) : crlfItems items = items.map Value.crlf := by
  induction items with
  | nil => rfl
  | cons v items ih => rw [crlfItems, ih, List.map_cons]

theorem crlfRepositories_eq_map (entries : List (Repository Value)) :
    crlfRepositories entries = entries.map Repository.crlf := by
  induction entries with
  | nil => rfl
  | cons entry entries ih => cases entry <;> rw [crlfRepositories, ih, List.map_cons] <;> rfl

theorem Document.crlf_eq_map (doc : Document) :
    doc.crlf = doc.map fun entry => (Breaks.crlf.text entry.1, entry.2.crlf) := by
  induction doc with
  | nil => rfl
  | cons entry doc ih => rw [List.map_cons, ← ih]; rfl

/-! ## Keys -/

namespace Document

variable {doc : Document} {key : String} {v : Value}

@[simp] theorem crlf_nil : Document.crlf [] = [] := rfl

theorem crlf_cons (key : String) (v : Value) (doc : Document) :
    Document.crlf ((key, v) :: doc) = (Breaks.crlf.text key, v.crlf) :: doc.crlf := rfl

theorem get?_crlf (doc : Document) (key : String) :
    doc.crlf.get? (Breaks.crlf.text key) = (doc.get? key).map Value.crlf := by
  induction doc with
  | nil => rfl
  | cons entry doc ih =>
    obtain ⟨k, v⟩ := entry
    rw [crlf_cons, get?, get?, ih]
    simp only [crlfText_injective.eq_iff]
    split <;> rfl

theorem set_crlf (doc : Document) (key : String) (v : Value) :
    doc.crlf.set (Breaks.crlf.text key) v.crlf = (doc.set key v).crlf := by
  induction doc with
  | nil => rfl
  | cons entry doc ih =>
    obtain ⟨k, w⟩ := entry
    rw [crlf_cons, set, set, ih]
    simp only [crlfText_injective.eq_iff]
    split <;> rfl

theorem add_crlf (doc : Document) (key : String) (v : Value) :
    doc.crlf.add (Breaks.crlf.text key) v.crlf = (doc.add key v).crlf := by
  unfold add
  rw [get?_crlf]
  cases found : doc.get? key with
  | none => exact set_crlf doc key v
  | some earlier =>
    cases earlier with
    | sequence items =>
      have items' : crlfItems items ++ [v.crlf] = crlfItems (items ++ [v]) := by
        simp only [crlfItems_eq_map, List.map_append, List.map_cons, List.map_nil]
      rw [← set_crlf, Value.crlf, ← items']
      rfl
    | _ => exact set_crlf doc key (.sequence [_, v])

/-! ## Merging -/

/-- Where no document stands a value is put in its place. -/
theorem mergeEntry_eq_set_of_ne {base : Document} {v : Value}
    (other : ∀ existing incoming, base.get? key = some (.document existing) →
      v ≠ .document incoming) :
    mergeEntry base key v = base.set key v := by
  cases v with
  | document incoming =>
    rw [mergeEntry]
    split
    · next existing found => exact absurd rfl (other existing incoming found)
    · rfl
  | _ => rfl

theorem eq_document_of_crlf_eq {v : Value} {doc : Document} (h : v.crlf = .document doc) :
    ∃ inner, v = .document inner := by
  cases v with
  | document inner => exact ⟨inner, rfl⟩
  | _ => cases h

theorem merge_crlf_and_mergeEntry_crlf :
    (∀ (base : Document) (incoming : List (String × Value)),
      merge base.crlf (crlfEntries incoming) = (merge base incoming).crlf) ∧
      ∀ (base : Document) (key : String) (v : Value),
        mergeEntry base.crlf (Breaks.crlf.text key) v.crlf = (mergeEntry base key v).crlf := by
  apply merge.mutual_induct
  case case1 =>
    intro base key incoming existing found ih
    rw [mergeEntry, found, ← set_crlf, Value.crlf, mergeEntry, get?_crlf, found]
    exact congrArg (fun doc => set (Breaks.crlf.text key) (.document doc) base.crlf) ih
  case case2 =>
    intro base key incoming other
    have alone : mergeEntry base key (.document incoming) = base.set key (.document incoming) :=
      mergeEntry_eq_set_of_ne fun existing _ found => absurd found (other existing)
    rw [alone, ← set_crlf]
    apply mergeEntry_eq_set_of_ne
    intro existing _ found
    rw [get?_crlf, Option.map_eq_some_iff] at found
    obtain ⟨earlier, there, same⟩ := found
    obtain ⟨inner, rfl⟩ := eq_document_of_crlf_eq same
    exact absurd there (other inner)
  case case3 =>
    intro v base key other
    rw [mergeEntry_eq_set_of_ne fun _ incoming _ => other incoming, ← set_crlf]
    apply mergeEntry_eq_set_of_ne
    intro _ incoming _ same
    obtain ⟨inner, rfl⟩ := eq_document_of_crlf_eq same
    exact other inner rfl
  case case4 =>
    intro base
    rw [crlfEntries, merge, merge]
  case case5 =>
    intro base key v incoming ih_entry ih
    rw [crlfEntries, merge, merge, ih_entry, ih]

theorem merge_crlf (base incoming : Document) :
    merge base.crlf incoming.crlf = (merge base incoming).crlf :=
  merge_crlf_and_mergeEntry_crlf.1 base incoming

theorem joinedValue_crlf (earlier : Option Value) (v : Value) :
    joinedValue (earlier.map Value.crlf) v.crlf = (joinedValue earlier v).crlf := by
  rcases earlier with _ | earlier
  · cases v <;> rfl
  · cases earlier with
    | document existing =>
      cases v with
      | document incoming => exact congrArg Value.document (merge_crlf existing incoming)
      | _ => rfl
    | dependencies existing =>
      cases v with
      | dependencies more => exact congrArg Value.dependencies List.map_append.symm
      | _ => rfl
    | repositories existing =>
      cases v with
      | repositories more =>
        refine congrArg Value.repositories ?_
        simp only [crlfRepositories_eq_map, List.map_append]
      | _ => rfl
    | _ => cases v <;> rfl

theorem joinBlock_crlf (doc : Document) (key : String) (v : Value) :
    doc.crlf.joinBlock (Breaks.crlf.text key) v.crlf = (doc.joinBlock key v).crlf := by
  rw [joinBlock_eq_set, joinBlock_eq_set, get?_crlf, joinedValue_crlf, set_crlf]

end Document

/-! ## Values that are read -/

theorem classify_crlf (raw : List Char) : classify (crlf raw) = (classify raw).crlf := by
  have text : String.ofList (unquote (trim (crlf raw))) =
      Breaks.crlf.text (String.ofList (unquote (trim raw))) := by
    rw [crlfText_ofList, crlf, crlf, Breaks.trim_write, Breaks.unquote_write]
  simp only [classify, text, crlfText_eq_iff (by decide : '\n' ∉ "true".toList),
    crlfText_eq_iff (by decide : '\n' ∉ "false".toList)]
  split
  · rfl
  · split <;> rfl

theorem listItems_crlf (s : List Char) :
    listItems (crlf s) = ((listItems s).1.map Value.crlf, crlf (listItems s).2) := by
  have inside : (crlf s).takeWhile (· != ']') = crlf (s.takeWhile (· != ']')) :=
    Breaks.crlf.takeWhile_write (by decide) s
  have behind : (crlf s).dropWhile (· != ']') = crlf (s.dropWhile (· != ']')) :=
    Breaks.crlf.dropWhile_write (by decide) s
  have rest : (crlf (s.dropWhile (· != ']'))).tail = crlf (s.dropWhile (· != ']')).tail := by
    have first := List.head?_dropWhile_not (· != ']') s
    cases left : s.dropWhile (· != ']') with
    | nil => rfl
    | cons c r =>
      rw [left] at first
      have bracket : c = ']' := by simpa using first
      rw [bracket]
      rfl
  have item : ∀ item : List Char, Value.text (String.ofList (unquote (trim (crlf item)))) =
      (Value.text (String.ofList (unquote (trim item)))).crlf := by
    intro item
    rw [Value.crlf, crlfText_ofList, crlf, crlf, Breaks.trim_write, Breaks.unquote_write]
  have pieces : splitOn ',' (crlf (s.takeWhile (· != ']'))) =
      (splitOn ',' (s.takeWhile (· != ']'))).map crlf := Breaks.crlf.splitOn_write (by decide) _
  have blank : allBlank (crlf (s.takeWhile (· != ']'))) = allBlank (s.takeWhile (· != ']')) :=
    Breaks.crlf.allBlank_write _
  simp only [listItems, inside, behind, rest, blank, pieces, List.map_map]
  refine Prod.ext ?_ rfl
  dsimp only
  split
  · rfl
  · rw [List.map_map]
    exact List.map_congr_left fun piece _ => item piece

theorem isEmptyText_crlf (v : Value) : v.crlf.isEmptyText = v.isEmptyText := by
  cases v with
  | text s => simp [Value.crlf, Value.isEmptyText, Breaks.text_eq_empty_iff]
  | _ => rfl

theorem repositoryEntry_crlf (key : String) (v : Value) :
    repositoryEntry (Breaks.crlf.text key) v.crlf = (repositoryEntry key v).crlf := by
  unfold repositoryEntry
  rw [isEmptyText_crlf]
  split <;> rfl

theorem repositoryEntries_crlf (doc : Document) :
    repositoryEntries doc.crlf = crlfRepositories (repositoryEntries doc) := by
  rw [crlfRepositories_eq_map, Document.crlf_eq_map, repositoryEntries, repositoryEntries,
    List.flatMap_map, List.map_flatMap]
  refine congrArg (fun entries => List.flatMap entries doc) (funext fun entry => ?_)
  obtain ⟨key, v⟩ := entry
  cases v with
  | sequence items =>
    simp only [Value.crlf, crlfItems_eq_map, List.map_map]
    exact List.map_congr_left fun item _ => repositoryEntry_crlf key item
  | _ => exact congrArg (fun entry => [entry]) (repositoryEntry_crlf key _)

namespace ScopeKind

variable (kind : ScopeKind)

theorem ofBlock_crlf (key : String) : kind.ofBlock (Breaks.crlf.text key) = kind.ofBlock key := by
  simp only [ofBlock, crlfText_eq_iff (by decide : '\n' ∉ "repositories".toList)]

theorem value_crlf (doc : Document) : kind.value doc.crlf = (kind.value doc).crlf := by
  cases kind with
  | repositories => exact congrArg Value.repositories (repositoryEntries_crlf doc)
  | script => rfl
  | repository => rfl

theorem storeBlock_crlf (key : String) (v : Value) (doc : Document) :
    kind.storeBlock (Breaks.crlf.text key) v.crlf doc.crlf = (kind.storeBlock key v doc).crlf := by
  unfold storeBlock
  simp only [Breaks.text_eq_empty_iff]
  split
  · rfl
  · cases kind with
    | repositories => exact doc.add_crlf key v
    | script => exact doc.joinBlock_crlf key v
    | repository => exact doc.joinBlock_crlf key v

theorem storeSetting_crlf (key raw : String) (doc : Document) :
    kind.storeSetting (Breaks.crlf.text key) (Breaks.crlf.text raw) doc.crlf =
      (kind.storeSetting key raw doc).crlf := by
  have blank : allBlank (Breaks.crlf.text raw).toList = allBlank raw.toList := by
    rw [Breaks.toList_text, Breaks.allBlank_write]
  have same : classify (Breaks.crlf.text raw).toList = (classify raw.toList).crlf := by
    rw [Breaks.toList_text]
    exact classify_crlf raw.toList
  unfold storeSetting
  rw [blank, same]
  simp only [Breaks.text_eq_empty_iff]
  split
  · rfl
  · exact doc.add_crlf key _

end ScopeKind

end BuildScript
