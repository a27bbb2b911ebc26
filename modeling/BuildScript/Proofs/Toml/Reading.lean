import BuildScript.Proofs.Toml.Lines

/-!
# Reading TOML

A document that is written as TOML is valid TOML 1.0 and comes back with all its data.  Only the
order changes: a table gives its plain values first.
-/

namespace BuildScript.Toml

open Text

/-- The data of a valid text in TOML.  Numbers, dates and arrays of tables, which no document has,
are not read. -/
def read? (s : List Char) : Option Tree := (expressions s).bind defined?

/-! ## Lines of a document -/

/-- The lines, each with its line break. -/
def block (lines : List (List Char)) : List Char := lines.flatMap (· ++ ['\n'])

theorem says_settings {entries : List (String × Value)}
    (unique : entryTreesUnique (entryTrees entries)) :
    Says (block (settings (Table.ofDocument entries)))
      (settingExpressions (entryTrees entries)) := by
  unfold settingExpressions
  induction entries using table_induction with
  | nil => exact says_nil
  | nested k inner entries _ ih => exact ih unique.2
  | plain k v entries plain ih =>
    have here : Says (key k ++ " = ".toList ++ value (Inline.ofValue v) ++ ['\n'])
        [.setting [k] v.tree] := by
      rw [← Inline.tree_ofValue v]
      exact says_setting k ((Inline.tree_ofValue v).symm ▸ unique.1)
    rw [Table.ofDocument, Item.ofValue_eq_value plain, settings, entryTrees, plainEntries]
    · exact here.append (ih unique.2)
    · exact fun _ inner same => tree_ne_map plain inner (congrArg Prod.snd same)

/-- Every table stands behind an empty line. -/
theorem says_tables (path : List String) {entries : List (String × Value)}
    (unique : entryTreesUnique (entryTrees entries)) :
    Says ((tables path (Table.ofDocument entries)).flatMap fun lines => ['\n'] ++ block lines)
      (tableExpressions path (entryTrees entries)) := by
  induction entries using table_induction generalizing path with
  | nil =>
    rw [Table.ofDocument, tables, entryTrees, tableExpressions]
    exact says_nil
  | nested k inner entries ihInner ih =>
    obtain ⟨⟨-, innerUnique⟩, others⟩ := unique
    have head : Says (['\n'] ++ block (header (path ++ [k]) :: settings (Table.ofDocument inner)))
        (.header (path ++ [k]) :: settingExpressions (entryTrees inner)) :=
      says_lineBreak.append ((says_header (List.concat_ne_nil k path)).append
        (says_settings innerUnique))
    have below := head.append (ihInner (path ++ [k]) innerUnique)
    rw [Table.ofDocument, Item.ofValue, tables, entryTrees, Value.tree, tableExpressions,
      List.flatMap_append, List.flatMap_cons, ← List.cons_append]
    exact below.append (ih path others)
  | plain k v entries plain ih =>
    rw [Table.ofDocument, Item.ofValue_eq_value plain, tables, entryTrees, tableExpressions]
    · exact ih path unique.2
    · exact fun _ inner same => tree_ne_map plain inner (congrArg Prod.snd same)

/-- The empty lines stand only between the groups, and say nothing. -/
theorem says_paragraphs {groups : List (List (List Char))} {es : List Expression}
    (h : Says (groups.flatMap fun lines => ['\n'] ++ block lines) es) :
    Says (paragraphs groups) es := by
  cases groups with
  | nil => exact h
  | cons lines groups =>
    have text : (lines :: groups).flatMap (fun lines => ['\n'] ++ block lines) =
        ['\n'] ++ paragraphs (lines :: groups) := by
      simp [paragraphs, joined_eq_append_flatMap, block, List.flatMap_map]
    intro rest
    have whole := h rest
    rw [text, List.append_assoc, says_lineBreak] at whole
    simpa using whole

theorem says_encode {doc : Document} (unique : entryTreesUnique (entryTrees doc)) :
    Says (encode doc).toList (expressionsOf (entryTrees doc)) := by
  have settings := says_settings unique
  have tables := says_tables [] unique
  rw [encode, String.toList_ofList, write]
  refine says_paragraphs ?_
  rw [List.flatMap_append]
  refine Says.append ?_ tables
  split
  · next none =>
    rw [List.isEmpty_iff] at none
    rw [none] at settings
    exact settings
  · rw [List.flatMap_singleton]
    exact says_lineBreak.append settings

/-! ## The whole document -/

/-- What is written as TOML is a table with the data of the document, and it is read as the document
itself, except for the order in its tables: each gives first its plain values and then its tables,
both in the order of the document. -/
theorem read_encode (doc : Document) (h : doc.UniqueKeys) :
    (Item.table (Table.ofDocument doc)).tree = doc.tree ∧
      read? (encode doc).toList = some (.map (ordered (entryTrees doc))) ∧
      Tree.Same (.map (ordered (entryTrees doc))) doc.tree := by
  have unique : (Tree.map (entryTrees doc)).UniqueKeys := h.tree
  refine ⟨?_, ?_, .map (sameEntries_ordered (entryTrees doc))⟩
  · rw [Item.tree, itemTrees_ofDocument, Document.tree]
  · rw [read?, (says_encode unique.2).whole, Option.bind_some, defined?_expressionsOf unique]

/-- An empty key, keys with a dot or a quote, and texts that no kind of quotes holds as they are. -/
def sampleDocument : Document :=
  [("android.app", .document [("inner", .document []), ("\"", .boolean true)]),
    ("", .text "\"\"\"'\\\n'''\x00"),
    ("items", .sequence [.text "it's \"so\"", .document [("a", .document []), ("b", .text "\t")]]),
    ("dependencies", .dependencies [⟨"g", "n", "", "compile", [[("module", "m")]]⟩]),
    ("repositories", .repositories [.unknown "mavenCentral()", .named "maven" (.text "url")])]

theorem read_encode_sampleDocument :
    sampleDocument.UniqueKeys ∧ (ordered (entryTrees sampleDocument)).map Prod.fst =
        ["", "items", "dependencies", "repositories", "android.app"] ∧
      (Item.table (Table.ofDocument sampleDocument)).tree = sampleDocument.tree ∧
      read? (encode sampleDocument).toList = some (.map (ordered (entryTrees sampleDocument))) ∧
      Tree.Same (.map (ordered (entryTrees sampleDocument))) sampleDocument.tree := by
  have unique : sampleDocument.UniqueKeys := by
    refine ⟨by decide, ?_⟩
    simp [sampleDocument, Value.UniqueKeys, itemsUnique, entriesUnique, repositoriesUnique]
  refine ⟨unique, ?_, read_encode sampleDocument unique⟩
  simp [sampleDocument, entryTrees, Value.tree, ordered, plainEntries, tableEntries]

end BuildScript.Toml
