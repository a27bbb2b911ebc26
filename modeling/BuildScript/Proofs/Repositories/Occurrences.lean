import BuildScript.Proofs.Repositories.Reading

/-!
# Occurrences of a key in a repositories block

A key of a repositories block may occur in lines with values, in lists and in blocks, in any order.
Each occurrence gives one entry with its value, unless the first one is a list: values that have
gathered under a key look like a list, so a list that stands first gives up its items.
-/

namespace BuildScript

/-! ## Values under a key -/

/-- The data of the entries of a type, in their order. -/
def dataOf (type : String) (entries : List (Repository Value)) : List Value :=
  entries.filterMap fun
    | .unknown _ => none
    | .named t data => if t = type then some data else none

/-- The values of a key among pairs of keys and values. -/
def valuesAt (key : String) (pairs : List (String × Value)) : List Value :=
  (pairs.filter (·.1 = key)).map Prod.snd

/-- Values with the items of a list in its place, if a list is the first of them. -/
def spread : List Value → List Value
  | .sequence items :: others => items ++ others
  | values => values

theorem spread_append {values : List Value} (some_ : values ≠ []) (more : List Value) :
    spread (values ++ more) = spread values ++ more := by
  obtain ⟨first, others, rfl⟩ := List.exists_cons_of_ne_nil some_
  cases first <;> simp [spread]

/-- No list is an item of itself, so giving up its items changes the values. -/
theorem filter_spread_eq_iff (values : List Value) :
    (spread values).filter (!·.isEmptyText) = values.filter (!·.isEmptyText) ↔
      ∀ items, values.head? ≠ some (.sequence items) := by
  constructor
  · rintro same items first
    obtain ⟨others, rfl⟩ := List.head?_eq_some_iff.1 first
    rw [spread, List.filter_append, List.filter_cons_of_pos (by rfl)] at same
    have alone : items.filter (!·.isEmptyText) = [.sequence items] :=
      List.append_cancel_right same
    have member : Value.sequence items ∈ items.filter (!·.isEmptyText) := by simp [alone]
    have smaller := List.sizeOf_lt_of_mem (List.mem_of_mem_filter member)
    rw [Value.sequence.sizeOf_spec] at smaller
    omega
  · intro other
    congr 1
    cases values with
    | nil => rfl
    | cons first others =>
      cases first with
      | sequence items => exact absurd rfl (other items)
      | _ => rfl

/-- Empty texts are left out of the data: they stand for bare calls. -/
theorem dataOf_map_repositoryEntry (key : String) (values : List Value) :
    dataOf key (values.map (repositoryEntry key)) = values.filter (!·.isEmptyText) := by
  induction values with
  | nil => rfl
  | cons v values ih =>
    rw [dataOf] at ih
    cases empty : v.isEmptyText <;> simp [dataOf, repositoryEntry, empty, ih]

/-- The data of a type is found among the entries under that key. -/
theorem dataOf_filter (key : String) (entries : List (Repository Value)) :
    dataOf key (entries.filter (·.key = key)) = dataOf key entries := by
  rw [dataOf, dataOf, List.filterMap_filter]
  refine List.filterMap_congr fun entry _ => ?_
  cases entry with
  | unknown name => simp
  | named type data =>
    by_cases same : type = key <;> simp [Repository.key, same]

namespace Document

variable {doc : Document}

theorem filter_repositoryEntries (unique : doc.keys.Nodup) (key : String) :
    (repositoryEntries doc).filter (·.key = key) =
      (gathered key doc).map (repositoryEntry key) := by
  have single : ∀ (k : String) (values : List Value),
      (values.map (repositoryEntry k)).filter (·.key = key) =
        if k = key then values.map (repositoryEntry k) else [] := by
    intro k values
    split
    · next same => exact List.filter_eq_self.2 (by simp [key_repositoryEntry, same])
    · next other => exact List.filter_eq_nil_iff.2 (by simp [key_repositoryEntry, other])
  induction doc with
  | nil => rfl
  | cons entry doc ih =>
    obtain ⟨k, v⟩ := entry
    obtain ⟨new, rest⟩ : k ∉ keys doc ∧ (keys doc).Nodup := List.nodup_cons.1 unique
    have first : repositoryEntries ((k, v) :: doc) =
        (gathered k ((k, v) :: doc)).map (repositoryEntry k) ++ repositoryEntries doc := by
      cases v <;> simp [repositoryEntries, gathered, get?]
    rw [first, List.filter_append, single, ih rest]
    by_cases same : k = key
    · subst same
      have absent : gathered k doc = [] := by rw [gathered, get?_eq_none_iff.2 new]
      rw [if_pos rfl, absent, List.map_nil, List.append_nil]
    · have later : gathered key ((k, v) :: doc) = gathered key doc := by
        simp [gathered, get?, same]
      rw [if_neg same, later, List.nil_append]

/-! ## Adding values of any shape -/

/-- A value after what a key holds already. -/
def gather : Option Value → Value → Value
  | none, v => v
  | some (.sequence items), v => .sequence (items ++ [v])
  | some earlier, v => .sequence [earlier, v]

theorem get?_add (doc : Document) (key k : String) (v : Value) :
    get? k (doc.add key v) = if key = k then some (gather (get? key doc) v) else get? k doc := by
  unfold add
  split
  · next absent => rw [get?_set, absent, gather]
  · next items found => rw [get?_set, found, gather]
  · next earlier single found =>
    rw [get?_set, found, gather]
    exact single

/-- Add values under their keys one after the other. -/
def addAll (pairs : List (String × Value)) (doc : Document) : Document :=
  pairs.foldl (fun doc pair => doc.add pair.1 pair.2) doc

theorem addAll_append (pairs more : List (String × Value)) (doc : Document) :
    addAll (pairs ++ more) doc = addAll more (addAll pairs doc) := List.foldl_append

theorem nodup_keys_addAll {doc : Document} (unique : doc.keys.Nodup)
    (pairs : List (String × Value)) : (addAll pairs doc).keys.Nodup := by
  induction pairs generalizing doc with
  | nil => exact unique
  | cons pair pairs ih => exact ih (nodup_keys_add unique pair.1 pair.2)

/-- What a key holds when these values have been added under it. -/
def stored? : List Value → Option Value
  | [] => none
  | [v] => some v
  | values => some (.sequence (spread values))

theorem stored?_concat (values : List Value) (v : Value) :
    stored? (values ++ [v]) = some (gather (stored? values) v) := by
  rcases values with _ | ⟨w, _ | ⟨u, values⟩⟩
  · rfl
  · cases w <;> rfl
  · have more : spread (w :: u :: values ++ [v]) = spread (w :: u :: values) ++ [v] :=
      spread_append (List.cons_ne_nil _ _) [v]
    exact congrArg (some ∘ Value.sequence) more

theorem get?_addAll (pairs : List (String × Value)) (key : String) :
    get? key (addAll pairs []) = stored? (valuesAt key pairs) := by
  induction pairs using List.reverseRecOn with
  | nil => rfl
  | append_singleton pairs pair ih =>
    have last : addAll (pairs ++ [pair]) [] = (addAll pairs []).add pair.1 pair.2 :=
      addAll_append pairs [pair] []
    rw [last, get?_add, valuesAt, List.filter_append, List.map_append, ← valuesAt]
    by_cases here : pair.1 = key
    · subst here
      simp [stored?_concat, ih]
    · simp [here, ih]

/-- The values of a key gather in their order, behind the items of a list that is the first. -/
theorem gathered_addAll (pairs : List (String × Value)) (key : String) :
    gathered key (addAll pairs []) = spread (valuesAt key pairs) := by
  rw [gathered, get?_addAll]
  rcases valuesAt key pairs with _ | ⟨v, _ | ⟨w, values⟩⟩
  · rfl
  · cases v <;> simp [stored?, spread]
  · rfl

end Document

namespace Repositories

open Text Grammar
open Dependencies (Filler margin_filler)

variable {nesting : Nesting} {doc : Document} {outer : List Frame} {limit depth : Nat}

/-! ## Lines -/

/-- A line under a key, behind its indentation.  A block may be of any key. -/
inductive Occurrence (nesting : Nesting) where
  | bare (name : Name) (separators : Separators)
  | value (name : Name) (separator : Separator) (content : ValueText)
  | list (name : Name) (separator : Separator) (items : ListText) (tail : Tail)
  | block (name : Name) (separators : Separators)
      (body : BlockBody nesting .repositories name.name) (tail : Tail)

def Occurrence.text : Occurrence nesting → List Char
  | bare name separators => name.chars ++ separators.1
  | value name separator content => name.chars ++ (separator.chars ++ content.chars)
  | list name separator items tail =>
    name.chars ++ (separator.chars ++ '[' :: (items.1 ++ ']' :: tail.1))
  | block name separators body tail =>
    name.chars ++ (separators.1 ++ '{' :: (body.chars ++ '}' :: tail.1))

/-- The key of the line and what it says under it. -/
def Occurrence.pair : Occurrence nesting → String × Value
  | bare name _ => (name.name, .text "")
  | value name _ content => (name.name, classify content.chars)
  | list name _ items _ => (name.name, .sequence (itemValues items.1))
  | block name _ body _ => (name.name, body.value)

/-- A line of a repositories block, without its line break. -/
inductive Row (nesting : Nesting) where
  | filler {commented : Bool} (line : Filler commented)
  | occurrence (indent : Indent) (written : Occurrence nesting)

def Row.text : Row nesting → List Char
  | filler line => line.text
  | occurrence indent written => indent.1 ++ written.text

def Row.pairs : Row nesting → List (String × Value)
  | filler _ => []
  | occurrence _ written => [written.pair]

/-- The lines of a block, each with the line break that ends it. -/
abbrev Rows (nesting : Nesting) := List (Row nesting × LineBreak)

def Rows.text (rows : Rows nesting) : List Char :=
  rows.flatMap fun (row, lineBreak) => row.text ++ lineBreak.text

/-- The keys of all lines with what they say, in the order in which they are written. -/
def Rows.pairs (rows : Rows nesting) : List (String × Value) :=
  rows.flatMap fun (row, _) => row.pairs

/-! ## Reading lines -/

/-- A list is stored at its `]`, and the rest of its line does not count. -/
theorem read_list {name : String} (named : name ≠ "") (items : ListText) (tail : Tail)
    (rest : List Char) :
    read nesting ⟨.repositories, doc, .value name "", outer⟩
        ('[' :: (items.1 ++ ']' :: (tail.1 ++ rest))) =
      read nesting ⟨.repositories, doc.add name (.sequence (itemValues items.1)), .done, outer⟩
        rest := by
  have taken : step nesting ⟨.repositories, doc, .value name "", outer⟩ '['
        (items.1 ++ ']' :: (tail.1 ++ rest)) =
      .next ⟨.repositories, doc.add name (.sequence (itemValues items.1)), .done, outer⟩
        (tail.1 ++ rest) := by
    rw [step_value name "" (by decide)]
    simp [valueStep, isDelimiter, isIndent, listItems_append items.2, named]
  rw [read_of_next taken, read_tail]

/-- A line adds what it says under its key. -/
theorem read_occurrence (indent : Indent) (written : Occurrence ⟨limit, depth + outer.length⟩)
    (lineBreak : LineBreak) (rest : List Char) :
    read ⟨limit, depth⟩ ⟨.repositories, doc, .key "", outer⟩
        (margin (indent.1 ++ (written.text ++ (lineBreak.text ++ rest)))) =
      read ⟨limit, depth⟩ ⟨.repositories, doc.add written.pair.1 written.pair.2, .key "", outer⟩
        (margin rest) := by
  cases written with
  | bare name separators =>
    rw [Occurrence.text, List.append_assoc,
      read_name indent name (endOfKey_separators separators (endOfKey_lineBreak lineBreak rest)),
      read_name_separators, read_lineBreak_text, name.store_line]
    rfl
  | value name separator content =>
    simp only [Occurrence.text, List.append_assoc]
    rw [read_name indent name (separator.endOfKey _), read_name_separator, read_valueText,
      read_lineBreak_text, store_valueText name.name_ne_empty]
    rfl
  | list name separator items tail =>
    simp only [Occurrence.text, List.append_assoc, List.cons_append]
    rw [read_name indent name (separator.endOfKey _), read_name_separator,
      read_list name.name_ne_empty, read_lineBreak_text]
    rfl
  | block name separators body tail =>
    simp only [Occurrence.text, List.append_assoc, List.cons_append]
    rw [read_name indent name (endOfKey_separators separators (endOfKey_brace _)),
      read_name_separators, read_blockBody (name.blockKey?_line separators), read_tail,
      read_lineBreak_text]
    simp [ScopeKind.storeBlock, name.name_ne_empty, Line.store, Occurrence.pair]

theorem read_row (row : Row ⟨limit, depth + outer.length⟩) (lineBreak : LineBreak)
    (rest : List Char) :
    read ⟨limit, depth⟩ ⟨.repositories, doc, .key "", outer⟩
        (margin (row.text ++ (lineBreak.text ++ rest))) =
      read ⟨limit, depth⟩ ⟨.repositories, doc.addAll row.pairs, .key "", outer⟩
        (margin rest) := by
  cases row with
  | filler line =>
    rw [Row.text, margin_filler line (EndOfLine.lineBreak _ lineBreak rest), read_lineBreak_text]
    simp [Line.store, ScopeKind.storeSetting, Row.pairs, Document.addAll]
  | occurrence indent written =>
    rw [Row.text, List.append_assoc, read_occurrence]
    rfl

/-- The lines of a block add what they say one after the other. -/
theorem read_rows (outer : List Frame) (rows : Rows ⟨limit, depth + outer.length⟩)
    (rest : List Char) :
    read ⟨limit, depth⟩ ⟨.repositories, doc, .key "", outer⟩ (margin (rows.text ++ rest)) =
      read ⟨limit, depth⟩ ⟨.repositories, doc.addAll rows.pairs, .key "", outer⟩
        (margin rest) := by
  induction rows generalizing doc with
  | nil => rfl
  | cons first rows ih =>
    obtain ⟨row, lineBreak⟩ := first
    have text : Rows.text ((row, lineBreak) :: rows) ++ rest =
        row.text ++ (lineBreak.text ++ (Rows.text rows ++ rest)) := by simp [Rows.text]
    have pairs : Rows.pairs ((row, lineBreak) :: rows) = row.pairs ++ Rows.pairs rows := rfl
    rw [text, read_row, ih, pairs, Document.addAll_append]

/-! ## Blocks -/

/-- A repositories block has the entries of its lines.  Under each key they are the values of its
lines in order, one entry for each, where a list that stands first under its key gives up its items.
So every line gives one entry with its value, values that are an empty text left out, exactly for the
keys that do not occur first with a list.  That holds when the body is read as a scope of its own, and
when it is read as a block of any scope. -/
theorem entries_of_occurrences (nesting : Nesting) (outer : List Frame)
    (rows : Rows ⟨nesting.limit, nesting.depth + outer.length + 1⟩) (closing : Indent)
    (rest : List Char) :
    ∃ entries,
      (∃ doc, readScope ⟨nesting.limit, nesting.depth + outer.length + 1⟩ .repositories
          (rows.text ++ (closing.1 ++ '}' :: rest)) = .closed doc rest ∧
        ScopeKind.repositories.value doc = .repositories entries) ∧
      (∀ (kind : ScopeKind) (doc : Document) (line : Line),
        line.blockKey? = some "repositories" →
        nesting.depth + outer.length < nesting.limit →
        read nesting ⟨kind, doc, line, outer⟩
            ('{' :: (rows.text ++ (closing.1 ++ '}' :: rest))) =
          read nesting ⟨kind, kind.storeBlock "repositories" (.repositories entries) doc, .done,
            outer⟩ rest) ∧
      ∀ key : String,
        entries.filter (·.key = key) =
            (spread (valuesAt key rows.pairs)).map (repositoryEntry key) ∧
          (dataOf key entries = (valuesAt key rows.pairs).filter (!·.isEmptyText) ↔
            ∀ items, (valuesAt key rows.pairs).head? ≠ some (.sequence items)) := by
  refine ⟨repositoryEntries (Document.addAll rows.pairs []),
    ⟨Document.addAll rows.pairs [], ?_, rfl⟩, fun kind doc line opens room => ?_,
    fun key => ?_⟩
  · rw [readScope]
    refine (read_rows [] rows (closing.1 ++ '}' :: rest)).trans ?_
    rw [margin_closing]
    exact read_of_closed rfl
  · have inner : kind.ofBlock "repositories" = .repositories := if_pos rfl
    rw [read_opening opens (by decide) room, inner]
    let frame : Frame := ⟨"repositories", kind, doc⟩
    refine (read_rows (frame :: outer) rows (closing.1 ++ '}' :: rest)).trans ?_
    rw [margin_closing, read_closing]
    rfl
  · have under : (repositoryEntries (Document.addAll rows.pairs [])).filter (·.key = key) =
        (spread (valuesAt key rows.pairs)).map (repositoryEntry key) := by
      have empty : (Document.keys []).Nodup := List.nodup_nil
      have unique := Document.nodup_keys_addAll empty rows.pairs
      rw [Document.filter_repositoryEntries unique, Document.gathered_addAll]
    refine ⟨under, ?_⟩
    rw [← dataOf_filter, under, dataOf_map_repositoryEntry]
    exact filter_spread_eq_iff _

/-- A value, a list and a block under one key, and a list that stands first under another. -/
def mixedRows : Rows ⟨3, 1⟩ :=
  let ivy : Name :=
    ⟨"ivy".toList, by decide, by decide, by decide, by decide, by decide, by decide⟩
  let flat : Name :=
    ⟨"flat".toList, by decide, by decide, by decide, by decide, by decide, by decide⟩
  let blank : Indent := ⟨[' '], isIndent_of_mem_space⟩
  let gap : Separator := ⟨[' '], space_ne_nil, isDelimiter_of_mem_space⟩
  let space : Separators := ⟨[' '], isDelimiter_of_mem_space⟩
  [(.occurrence blank (.value ivy gap ⟨"'a'".toList, by decide, by decide, by rintro c ⟨⟩; decide⟩),
      .lineFeed),
   (.occurrence blank (.list flat gap ⟨"'p', 'q'".toList, by decide⟩ Run.none), .lineFeed),
   (.filler (.comment blank ⟨" ] \x7d".toList, by decide⟩), .both),
   (.occurrence blank (.list ivy gap ⟨"'b', 'c'".toList, by decide⟩ Run.none), .lineFeed),
   (.occurrence blank (.list flat gap Run.none Run.none), .lineFeed),
   (.occurrence blank (.block ivy space
     ⟨" url 'd' ".toList, .document [("url", .text "d")], by decide, by with_unfolding_all rfl⟩
       Run.none), .lineFeed)]

theorem entries_of_mixedRows :
    ∃ entries,
      read ⟨3, 0⟩ ⟨.script, [], .key "repositories", []⟩
          ("\x7b ivy 'a'\n flat ['p', 'q']\n // ] \x7d\r\n ivy ['b', 'c']\n flat []\n".toList ++
            " ivy \x7b url 'd' \x7d\n\x7d rest".toList) =
        .closed [("repositories", .repositories entries)] [] ∧
      dataOf "ivy" entries =
        [.text "a", .sequence [.text "b", .text "c"], .document [("url", .text "d")]] ∧
      dataOf "flat" entries ≠ [.sequence [.text "p", .text "q"], .sequence []] := by
  obtain ⟨entries, -, reads, under⟩ :=
    entries_of_occurrences ⟨3, 0⟩ [] mixedRows ⟨[], by decide⟩ " rest".toList
  refine ⟨entries, ?_, ?_, ?_⟩
  · refine (reads .script [] (.key "repositories") rfl (by decide)).trans ?_
    with_unfolding_all rfl
  · exact ((under "ivy").2.2 fun items first => by cases first).trans rfl
  · intro same
    exact (under "flat").2.1 same _ rfl

/-- A list that stands alone under its key gives one entry for each item, not one for the list. -/
theorem list_gives_entry_per_item :
    ∃ entries, parseText ⟨1, 64, none⟩ "repositories \x7b\nmaven ['a', 'b']\n\x7d" =
        .ok [("repositories", .repositories entries)] ∧
      dataOf "maven" entries = [.text "a", .text "b"] ∧
      dataOf "maven" entries ≠ [.sequence [.text "a", .text "b"]] :=
  ⟨[.named "maven" (.text "a"), .named "maven" (.text "b")], by with_unfolding_all rfl, rfl,
    fun same => by cases same⟩

end Repositories

end BuildScript
