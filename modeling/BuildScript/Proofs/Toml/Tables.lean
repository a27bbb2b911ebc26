import BuildScript.Format.Toml
import BuildScript.Proofs.Tree

/-!
# Tables of TOML

What the headers and settings of a text in TOML 1.0 define, and that tables which are written depth
first, each behind its plain values, come back as they are.
-/

namespace BuildScript.Toml

/-! ## Nodes -/

/-- How a table came to be: through the header of a table below it, through its own header or
through the dots of a key. -/
inductive Definition where
  | implied
  | headed
  | dotted

inductive Node where
  | value (tree : Tree)
  | table (definition : Definition) (entries : List (String × Node))

abbrev Entries := List (String × Node)

mutual

def Node.tree : Node → Tree
  | .value t => t
  | .table _ entries => .map (nodeTrees entries)

def nodeTrees : List (String × Node) → List (String × Tree)
  | [] => []
  | (k, node) :: entries => (k, node.tree) :: nodeTrees entries

end

/-- Replace the node of a key that is there. -/
def put (k : String) (node : Node) : Entries → Entries
  | [] => []
  | (l, old) :: entries => if l = k then (l, node) :: entries else (l, old) :: put k node entries

/-! ## Definitions -/

/-- Give a key its value.  A dotted key defines tables on its way, and goes through tables that
dotted keys have defined, but through no others.  No key is given a value twice. -/
def assign (v : Tree) : List String → Entries → Option Entries
  | [], _ => none
  | [k], entries =>
    match entries.lookup k with
    | none => some (entries ++ [(k, .value v)])
    | some _ => none
  | k :: path, entries =>
    match entries.lookup k with
    | none => (assign v path []).map fun inner => entries ++ [(k, .table .dotted inner)]
    | some (.table .dotted inner) =>
      (assign v path inner).map fun inner => put k (.table .dotted inner) entries
    | some _ => none

/-- Define a table by its header.  That may be done once, and not for a table that dotted keys have
defined; it goes through tables of every kind. -/
def openTable : List String → Entries → Option Entries
  | [], _ => none
  | [k], entries =>
    match entries.lookup k with
    | none => some (entries ++ [(k, .table .headed [])])
    | some (.table .implied inner) => some (put k (.table .headed inner) entries)
    | some _ => none
  | k :: path, entries =>
    match entries.lookup k with
    | none => (openTable path []).map fun inner => entries ++ [(k, .table .implied inner)]
    | some (.table definition inner) =>
      (openTable path inner).map fun inner => put k (.table definition inner) entries
    | some (.value _) => none

/-- Change the entries of the table at a path. -/
def within (change : Entries → Option Entries) : List String → Entries → Option Entries
  | [], entries => change entries
  | k :: path, entries =>
    match entries.lookup k with
    | some (.table definition inner) =>
      (within change path inner).map fun inner => put k (.table definition inner) entries
    | _ => none

/-- A line of a text in TOML that says something. -/
inductive Expression where
  | header (path : List String)
  | setting (path : List String) (v : Tree)

/-- The table that the settings belong to, and all entries, behind one more line. -/
def define (reached : List String × Entries) : Expression → Option (List String × Entries)
  | .header path => (openTable path reached.2).map fun entries => (path, entries)
  | .setting path v =>
    (within (assign v path) reached.1 reached.2).map fun entries => (reached.1, entries)

/-- What the lines define, if they do not contradict each other. -/
def defined? (expressions : List Expression) : Option Tree :=
  (expressions.foldlM define ([], [])).map fun (_, entries) => .map (nodeTrees entries)

/-! ## Looking up -/

section

variable {k : String} {node : Node} {entries : Entries}

theorem lookup_put (h : (entries.lookup k).isSome) : (put k node entries).lookup k = some node := by
  induction entries with
  | nil => cases h
  | cons entry entries ih =>
    obtain ⟨l, old⟩ := entry
    by_cases same : l = k
    · subst same
      simp [put]
    · have other : (k == l) = false := by simpa using Ne.symm same
      rw [List.lookup_cons, other] at h
      rw [put, if_neg same, List.lookup_cons, other]
      exact ih h

theorem put_self (h : entries.lookup k = some node) : put k node entries = entries := by
  induction entries with
  | nil => rfl
  | cons entry entries ih =>
    obtain ⟨l, old⟩ := entry
    by_cases same : l = k
    · subst same
      simp_all [put]
    · have other : (k == l) = false := by simpa using Ne.symm same
      rw [List.lookup_cons, other] at h
      rw [put, if_neg same, ih h]

theorem put_put (old : Node) : put k node (put k old entries) = put k node entries := by
  induction entries with
  | nil => rfl
  | cons entry entries ih =>
    obtain ⟨l, first⟩ := entry
    by_cases same : l = k <;> simp [put, same, ih]

/-- A key is not among those before it. -/
theorem new_of_nodup {α β : Type} {v : β} {before : List (String × α)} {after : List (String × β)}
    (h : (before.map Prod.fst ++ ((k, v) :: after).map Prod.fst).Nodup) :
    k ∉ before.map Prod.fst := by
  intro old
  have others := (List.nodup_cons.1 (List.nodup_middle.1 h)).1
  exact others (List.mem_append_left _ old)

theorem lookup_eq_none_iff : entries.lookup k = none ↔ k ∉ entries.map Prod.fst := by
  induction entries with
  | nil => simp
  | cons entry entries ih =>
    obtain ⟨l, first⟩ := entry
    by_cases same : k = l
    · simp [same]
    · have other : (k == l) = false := by simpa using same
      simp [List.lookup_cons, other, ih, same]

theorem assign_new (new : k ∉ entries.map Prod.fst) (v : Tree) :
    assign v [k] entries = some (entries ++ [(k, .value v)]) := by
  rw [assign, lookup_eq_none_iff.2 new]

theorem openTable_new (new : k ∉ entries.map Prod.fst) :
    openTable [k] entries = some (entries ++ [(k, .table .headed [])]) := by
  rw [openTable, lookup_eq_none_iff.2 new]

theorem put_concat (new : k ∉ entries.map Prod.fst) (old : Node) :
    put k node (entries ++ [(k, old)]) = entries ++ [(k, node)] := by
  induction entries with
  | nil => simp [put]
  | cons entry entries ih =>
    obtain ⟨l, first⟩ := entry
    have parts : k ≠ l ∧ k ∉ entries.map Prod.fst := by simpa using new
    rw [List.cons_append, put, if_neg (Ne.symm parts.1), ih parts.2, List.cons_append]

theorem lookup_concat (new : k ∉ entries.map Prod.fst) :
    (entries ++ [(k, node)]).lookup k = some node := by
  induction entries with
  | nil => simp
  | cons entry entries ih =>
    obtain ⟨l, first⟩ := entry
    have parts : k ≠ l ∧ k ∉ entries.map Prod.fst := by simpa using new
    have other : (k == l) = false := by simpa using parts.1
    rw [List.cons_append, List.lookup_cons, other, ih parts.2]

end

/-! ## Lines below a key -/

/-- The line as it reads in the table of a key. -/
def Expression.below (k : String) : Expression → Expression
  | header path => header (k :: path)
  | setting path v => setting path v

/-- A header names a table. -/
def Expression.Named : Expression → Prop
  | header path => path ≠ []
  | setting _ _ => True

/-- The state in the table of a key, seen from around it. -/
def around (k : String) (definition : Definition) (entries : Entries)
    (reached : List String × Entries) : List String × Entries :=
  (k :: reached.1, put k (.table definition reached.2) entries)

variable {k : String} {definition : Definition} {inner entries : Entries}

theorem define_below {e : Expression} (named : e.Named) (path : List String)
    (found : entries.lookup k = some (.table definition inner)) :
    define (k :: path, entries) (e.below k) =
      (define (path, inner) e).map (around k definition entries) := by
  cases e with
  | header target =>
    obtain ⟨l, target, rfl⟩ := List.exists_cons_of_ne_nil named
    simp only [Expression.below, define, openTable, found, Option.map_map]
    rfl
  | setting target v =>
    simp only [Expression.below, define, within, found, Option.map_map]
    rfl

/-- Lines that concern only what is below a key work on the table of the key. -/
theorem foldlM_below {es : List Expression} (named : ∀ e ∈ es, e.Named) (path : List String)
    (found : entries.lookup k = some (.table definition inner)) :
    (es.map (Expression.below k)).foldlM define (k :: path, entries) =
      (es.foldlM define (path, inner)).map (around k definition entries) := by
  induction es generalizing path inner entries with
  | nil => simp [around, put_self found]
  | cons e es ih =>
    obtain ⟨here, others⟩ := List.forall_mem_cons.1 named
    rw [List.map_cons, List.foldlM_cons, List.foldlM_cons, define_below here path found]
    cases define (path, inner) e with
    | none => rfl
    | some reached =>
      have inside : (put k (.table definition reached.2) entries).lookup k =
          some (.table definition reached.2) := lookup_put (by rw [found]; rfl)
      simp only [Option.map_some, Option.bind_eq_bind, Option.bind_some, around]
      rw [ih others reached.1 inside]
      congr 1
      funext last
      simp [around, put_put]

/-! ## Depth first -/

/-- The entries that are no maps. -/
def plainEntries : List (String × Tree) → List (String × Tree)
  | [] => []
  | (_, .map _) :: entries => plainEntries entries
  | entry :: entries => entry :: plainEntries entries

/-- The entries that are maps, each in the order of a table. -/
def tableEntries : List (String × Tree) → List (String × Tree)
  | [] => []
  | (k, .map inner) :: entries =>
    (k, .map (plainEntries inner ++ tableEntries inner)) :: tableEntries entries
  | _ :: entries => tableEntries entries

/-- The entries in the order of a table: first the values that are no maps, then the tables, and
so on in each of them.  A map in an array is part of a value and keeps its order. -/
def ordered (entries : List (String × Tree)) : List (String × Tree) :=
  plainEntries entries ++ tableEntries entries

def settingExpressions (entries : List (String × Tree)) : List Expression :=
  (plainEntries entries).map fun (k, t) => .setting [k] t

/-- The lines of the tables below the one at a path. -/
def tableExpressions (path : List String) : List (String × Tree) → List Expression
  | [] => []
  | (k, .map inner) :: entries =>
    .header (path ++ [k]) :: (settingExpressions inner ++ tableExpressions (path ++ [k]) inner) ++
      tableExpressions path entries
  | _ :: entries => tableExpressions path entries

/-- The lines of a table below its header. -/
def expressionsOf (entries : List (String × Tree)) : List Expression :=
  settingExpressions entries ++ tableExpressions [] entries

def valueNodes (plain : List (String × Tree)) : Entries :=
  plain.map fun (k, t) => (k, .value t)

def settingNodes (entries : List (String × Tree)) : Entries := valueNodes (plainEntries entries)

def tableNodes : List (String × Tree) → Entries
  | [] => []
  | (k, .map inner) :: entries =>
    (k, .table .headed (settingNodes inner ++ tableNodes inner)) :: tableNodes entries
  | _ :: entries => tableNodes entries

/-- What is defined when all lines of a table are read. -/
def nodesOf (entries : List (String × Tree)) : Entries :=
  settingNodes entries ++ tableNodes entries

/-! ### Order -/

theorem nodeTrees_append (first more : Entries) :
    nodeTrees (first ++ more) = nodeTrees first ++ nodeTrees more := by
  induction first with
  | nil => rfl
  | cons entry first ih => rw [List.cons_append, nodeTrees, nodeTrees, ih, List.cons_append]

theorem nodeTrees_valueNodes (plain : List (String × Tree)) :
    nodeTrees (valueNodes plain) = plain := by
  induction plain with
  | nil => rfl
  | cons entry plain ih =>
    rw [valueNodes, List.map_cons, nodeTrees, Node.tree]
    exact congrArg (List.cons entry) ih

theorem nodeTrees_tableNodes (entries : List (String × Tree)) :
    nodeTrees (tableNodes entries) = tableEntries entries := by
  fun_induction tableNodes entries with
  | case1 => rw [nodeTrees, tableEntries]
  | case2 k inner entries ihInner ih =>
    rw [nodeTrees, Node.tree, nodeTrees_append, settingNodes, nodeTrees_valueNodes, ihInner, ih,
      tableEntries]
  | case3 entry entries other ih => rw [ih, tableEntries]; exact other

theorem nodeTrees_nodesOf (entries : List (String × Tree)) :
    nodeTrees (nodesOf entries) = ordered entries := by
  rw [nodesOf, nodeTrees_append, settingNodes, nodeTrees_valueNodes, nodeTrees_tableNodes, ordered]

/-- In the order of a table, the data is the same. -/
theorem sameEntries_ordered (entries : List (String × Tree)) :
    Tree.SameEntries (ordered entries) entries := by
  unfold ordered
  fun_induction tableEntries entries with
  | case1 => exact .nil
  | case2 k inner entries ihInner ih =>
    rw [plainEntries]
    exact (Tree.SameEntries.of_perm List.perm_middle).trans (.cons k (.map ihInner) ih)
  | case3 entry entries other ih =>
    rw [plainEntries]
    · exact .cons entry.1 (Tree.Same.refl entry.2) ih
    · exact other

theorem keys_valueNodes (plain : List (String × Tree)) :
    (valueNodes plain).map Prod.fst = plain.map Prod.fst := by
  simp [valueNodes, Function.comp_def]

theorem keys_nodesOf_perm (entries : List (String × Tree)) :
    ((nodesOf entries).map Prod.fst).Perm (entries.map Prod.fst) := by
  rw [nodesOf, List.map_append, settingNodes, keys_valueNodes]
  fun_induction tableNodes entries with
  | case1 => exact .nil
  | case2 k inner entries _ ih =>
    rw [plainEntries]
    exact List.perm_middle.trans (ih.cons k)
  | case3 entry entries other ih =>
    rw [plainEntries]
    · exact ih.cons entry.1
    · exact other

/-! ### Lines of a table -/

theorem named_tableExpressions (path : List String) (entries : List (String × Tree)) :
    ∀ e ∈ tableExpressions path entries, e.Named := by
  fun_induction tableExpressions path entries with
  | case1 => exact fun e member => absurd member List.not_mem_nil
  | case2 path k inner entries ihInner ih =>
    intro e member
    rcases List.mem_append.1 member with here | later
    · rcases List.mem_cons.1 here with rfl | below
      · exact List.concat_ne_nil _ _
      · rcases List.mem_append.1 below with setting | table
        · obtain ⟨entry, -, rfl⟩ := List.mem_map.1 setting
          trivial
        · exact ihInner e table
    · exact ih e later
  | case3 path entry entries other ih => exact ih

theorem named_expressionsOf (entries : List (String × Tree)) :
    ∀ e ∈ expressionsOf entries, e.Named := by
  intro e member
  rcases List.mem_append.1 member with setting | table
  · obtain ⟨entry, -, rfl⟩ := List.mem_map.1 setting
    trivial
  · exact named_tableExpressions [] entries e table

theorem tableExpressions_below (k : String) (path : List String)
    (entries : List (String × Tree)) :
    tableExpressions (k :: path) entries =
      (tableExpressions path entries).map (Expression.below k) := by
  fun_induction tableExpressions path entries with
  | case1 => rw [tableExpressions, List.map_nil]
  | case2 path l inner entries ihInner ih =>
    rw [tableExpressions]
    simp [Expression.below, ihInner, ih, settingExpressions]
  | case3 path entry entries other ih =>
    rw [tableExpressions, ih]
    exact other

/-- The table of a key from its header on, as it is read inside that table. -/
theorem tableExpressions_cons (k : String) (inner entries : List (String × Tree)) :
    tableExpressions [] ((k, .map inner) :: entries) =
      .header [k] :: ((expressionsOf inner).map (Expression.below k) ++
        tableExpressions [] entries) := by
  have settings : (settingExpressions inner).map (Expression.below k) =
      settingExpressions inner := by
    simp [settingExpressions, Expression.below]
  rw [tableExpressions, List.nil_append, tableExpressions_below, expressionsOf, List.map_append,
    settings, List.cons_append]

theorem foldlM_settings (before : Entries) {plain : List (String × Tree)}
    (keys : (before.map Prod.fst ++ plain.map Prod.fst).Nodup) :
    (plain.map fun (k, t) => Expression.setting [k] t).foldlM define ([], before) =
      some ([], before ++ valueNodes plain) := by
  induction plain generalizing before with
  | nil => simp [valueNodes]
  | cons entry plain ih =>
    obtain ⟨k, t⟩ := entry
    have new := new_of_nodup keys
    have here : define ([], before) (.setting [k] t) = some ([], before ++ [(k, .value t)]) := by
      simp [define, within, assign_new new]
    rw [List.map_cons, List.foldlM_cons, here, Option.bind_eq_bind, Option.bind_some,
      ih _ (by simpa using keys)]
    simp [valueNodes]

/-- A table is defined by its header and then by the lines below it. -/
theorem foldlM_table {k : String} {inner : List (String × Tree)} {before entries : Entries}
    {last : List String} (new : k ∉ before.map Prod.fst) (current : List String)
    (h : (expressionsOf inner).foldlM define ([], []) = some (last, entries)) :
    (.header [k] :: (expressionsOf inner).map (Expression.below k)).foldlM define
        (current, before) = some (k :: last, before ++ [(k, .table .headed entries)]) := by
  have here : define (current, before) (.header [k]) =
      some ([k], before ++ [(k, .table .headed [])]) := by
    rw [define, openTable_new new, Option.map_some]
  rw [List.foldlM_cons, here, Option.bind_eq_bind, Option.bind_some,
    foldlM_below (named_expressionsOf inner) [] (lookup_concat new), h, Option.map_some, around,
    put_concat new]

theorem nodup_keys_nodesOf {entries : List (String × Tree)} (h : (entries.map Prod.fst).Nodup) :
    ((settingNodes entries).map Prod.fst ++ (tableNodes entries).map Prod.fst).Nodup := by
  rw [← List.map_append]
  exact (keys_nodesOf_perm entries).nodup_iff.2 h

/-- The settings of a table stand before its tables. -/
theorem foldlM_expressionsOf {entries : List (String × Tree)}
    (h : (entries.map Prod.fst).Nodup) :
    (expressionsOf entries).foldlM define ([], []) =
      (tableExpressions [] entries).foldlM define ([], settingNodes entries) := by
  have settings : (settingExpressions entries).foldlM define ([], []) =
      some ([], settingNodes entries) := by
    refine foldlM_settings [] ?_
    rw [List.map_nil, List.nil_append, ← keys_valueNodes]
    exact (nodup_keys_nodesOf h).of_append_left
  rw [expressionsOf, List.foldlM_append, settings]
  rfl

/-- The tables, read behind entries with other keys. -/
theorem foldlM_tables (entries : List (String × Tree)) (current : List String) (before : Entries)
    (keys : (before.map Prod.fst ++ (tableNodes entries).map Prod.fst).Nodup)
    (unique : entryTreesUnique entries) :
    ∃ last, (tableExpressions [] entries).foldlM define (current, before) =
      some (last, before ++ tableNodes entries) := by
  fun_induction tableNodes entries generalizing current before with
  | case1 => exact ⟨current, by rw [tableExpressions, List.append_nil]; rfl⟩
  | case2 k inner entries ihInner ih =>
    obtain ⟨⟨innerKeys, innerUnique⟩, others⟩ := unique
    obtain ⟨last, tables⟩ := ihInner [] _ (nodup_keys_nodesOf innerKeys) innerUnique
    have inside : (expressionsOf inner).foldlM define ([], []) = some (last, nodesOf inner) :=
      (foldlM_expressionsOf innerKeys).trans tables
    have new := new_of_nodup keys
    obtain ⟨next, behind⟩ := ih (k :: last) (before ++ [(k, .table .headed (nodesOf inner))])
      (by simpa using keys) others
    refine ⟨next, ?_⟩
    rw [tableExpressions_cons, ← List.cons_append, List.foldlM_append,
      foldlM_table new current inside, Option.bind_eq_bind, Option.bind_some, behind, nodesOf,
      List.append_assoc, List.singleton_append]
  | case3 entry entries other ih =>
    rw [tableExpressions]
    · exact ih current before keys unique.2
    · exact other

/-- The lines of a document, one table after the other, define its data. -/
theorem defined?_expressionsOf {entries : List (String × Tree)}
    (h : (Tree.map entries).UniqueKeys) :
    defined? (expressionsOf entries) = some (.map (ordered entries)) := by
  obtain ⟨last, tables⟩ := foldlM_tables entries [] _ (nodup_keys_nodesOf h.1) h.2
  rw [defined?, foldlM_expressionsOf h.1, tables, Option.map_some]
  exact congrArg (fun entries => some (Tree.map entries)) (nodeTrees_nodesOf entries)

end BuildScript.Toml
