import BuildScript.Proofs.Yaml.Scalars

/-!
# Blocks of YAML

Each block begins and ends where its indentation says, and no sequence begins like a mapping or a
scalar.  So a tree can be told from its text, and a document that is written as YAML loses nothing.
-/

namespace BuildScript.Yaml

/-! ## Leaves -/

/-- The tree is written without a block of its own. -/
def IsLeaf : Tree → Prop
  | .text _ => True
  | .boolean _ => True
  | .array items => items = []
  | .map entries => entries = []

/-- The words of leaves that are no texts. -/
def leafWords : List (List Char) := ["true".toList, "false".toList, "[]".toList, ['{', '}']]

/-- The scalar of a leaf that is no literal block. -/
def leafInline : Tree → Inline
  | .text s => inline s.toList
  | .boolean b => .word (if b then "true" else "false").toList
  | .array _ => .word "[]".toList
  | .map _ => .word ['{', '}']

/-- The leaf that a scalar on one line stands for. -/
def readInline : Inline → Tree
  | .word w =>
    if w = "true".toList then .boolean true
    else if w = "false".toList then .boolean false
    else if w = "[]".toList then .array []
    else if w = ['{', '}'] then .map []
    else .text (String.ofList w)
  | x => .text (String.ofList x.content)

theorem isWord_leafWords {w : List Char} (h : w ∈ leafWords) : IsWord w := by
  simp only [leafWords, List.mem_cons, List.not_mem_nil, or_false] at h
  rcases h with rfl | rfl | rfl | rfl
  all_goals exact ⟨by decide, by decide, fun rest => rfl⟩

/-- A text that reads like one of the words is put in quotes. -/
theorem style_leafWords {w : List Char} (h : w ∈ leafWords) : style w = .single := by
  revert w
  decide

theorem readInline_word {w : List Char} (h : w ∉ leafWords) :
    readInline (.word w) = .text (String.ofList w) := by
  simp only [leafWords, List.mem_cons, List.not_mem_nil, or_false, not_or] at h
  obtain ⟨noTrue, noFalse, noArray, noMap⟩ := h
  rw [readInline, if_neg noTrue, if_neg noFalse, if_neg noArray, if_neg noMap]

theorem readInline_inline (s : String) : readInline (inline s.toList) = .text s := by
  have word : style s.toList ≠ .single → readInline (.word s.toList) = .text s := by
    intro plain
    rw [readInline_word fun inside => plain (style_leafWords inside), String.ofList_toList]
  rw [inline]
  cases same : style s.toList with
  | plain => exact word (by simp [same])
  | single => exact congrArg Tree.text String.ofList_toList
  | double => exact congrArg Tree.text String.ofList_toList
  | literal => exact word (by simp [same])

theorem readInline_leafInline {t : Tree} (h : IsLeaf t) : readInline (leafInline t) = t := by
  cases t with
  | text s => exact readInline_inline s
  | boolean b => cases b <;> rfl
  | array items => cases h; rfl
  | map entries => cases h; rfl

theorem leafInline_inj {t u : Tree} (ht : IsLeaf t) (hu : IsLeaf u)
    (same : leafInline t = leafInline u) : t = u := by
  rw [← readInline_leafInline ht, same, readInline_leafInline hu]

/-- What stands behind the space of a leaf is a literal block or a scalar on one line. -/
theorem leaf_cases (n : Nat) (t : Tree) :
    (∃ s, t = .text s ∧ style s.toList = .literal) ∨
      (leafInline t).Valid ∧
        ∀ r, leaf n t ++ r = ' ' :: ((leafInline t).text (n + 2) ++ '\n' :: r) := by
  cases t with
  | text s =>
    by_cases block : style s.toList = .literal
    · exact .inl ⟨s, rfl, block⟩
    · refine .inr ⟨inline_valid block, fun r => ?_⟩
      rw [leaf, scalar_inline block, List.cons_append, List.append_assoc]
      rfl
  | boolean b => cases b <;> exact .inr ⟨isWord_leafWords (by simp [leafWords]), fun r => rfl⟩
  | array items => exact .inr ⟨isWord_leafWords (by simp [leafWords]), fun r => rfl⟩
  | map entries => exact .inr ⟨isWord_leafWords (by simp [leafWords]), fun r => rfl⟩

theorem leaf_text_append (n : Nat) (s : String) (r : List Char) :
    leaf n (.text s) ++ r = ' ' :: (scalar (n + 2) s ++ r) := rfl

/-- A leaf begins like a scalar. -/
theorem opening_leaf {n : Nat} {t : Tree} {r s : List Char} (h : leaf n t ++ r = ' ' :: s) :
    opening s = .literal ∨ (leafInline t).Valid ∧ s = (leafInline t).text (n + 2) ++ '\n' :: r ∧
      opening s = (leafInline t).opening := by
  rcases leaf_cases n t with ⟨text, rfl, block⟩ | ⟨valid, shown⟩
  · rw [leaf_text_append] at h
    rw [← (List.cons.inj h).2]
    exact .inl (opening_scalar_literal block (n + 2) r)
  · rw [shown] at h
    obtain ⟨-, rfl⟩ := List.cons.inj h
    exact .inr ⟨valid, rfl, Inline.opening_text_append valid _ _⟩

theorem leaf_append_inj {n : Nat} {t u : Tree} {r r' : List Char} (ht : IsLeaf t) (hu : IsLeaf u)
    (hr : Dedent (n + 2) r) (hr' : Dedent (n + 2) r') (same : leaf n t ++ r = leaf n u ++ r') :
    t = u ∧ r = r' := by
  rcases leaf_cases n t with ⟨s, rfl, block⟩ | ⟨valid, shown⟩ <;>
    rcases leaf_cases n u with ⟨s', rfl, block'⟩ | ⟨valid', shown'⟩
  · rw [leaf_text_append, leaf_text_append] at same
    obtain ⟨rfl, rest⟩ := scalar_append_inj hr hr' (List.cons.inj same).2
    exact ⟨rfl, rest⟩
  · rw [leaf_text_append, shown'] at same
    have openings := congrArg opening (List.cons.inj same).2
    rw [opening_scalar_literal block, Inline.opening_text_append valid'] at openings
    exact absurd openings.symm (leafInline u).opening_ne.2.1
  · rw [leaf_text_append, shown] at same
    have openings := congrArg opening (List.cons.inj same).2
    rw [opening_scalar_literal block', Inline.opening_text_append valid] at openings
    exact absurd openings (leafInline t).opening_ne.2.1
  · rw [shown, shown'] at same
    obtain ⟨inline, -, rest⟩ :=
      Inline.text_append_inj valid valid' (.inl rfl) (.inl rfl) (List.cons.inj same).2
    exact ⟨leafInline_inj ht hu inline, rest⟩

/-! ## Keys -/

/-- A short key is a scalar on one line, at any indentation. -/
theorem shortKey_eq {k : String} (short : isShortKey k = true) (n : Nat) :
    (inline k.toList).Valid ∧ shortKey k = (inline k.toList).text n ++ [':'] := by
  have noBreak : ∀ c ∈ k.toList, isBreak c = false := by
    simp only [isShortKey, Bool.and_eq_true, Bool.not_eq_true', List.any_eq_false] at short
    simpa using short.1
  have inLine : '\n' ∉ k.toList := fun inside => absurd (noBreak '\n' inside) (by decide)
  have noBlock := style_ne_literal inLine
  refine ⟨inline_valid noBlock, ?_⟩
  rw [shortKey, scalar_inline noBlock, List.dropLast_concat]
  rw [inline]
  cases style k.toList with
  | single =>
    simp only [Inline.ofText, Inline.text]
    rw [single_of_no_break noBreak, single_of_no_break noBreak]
  | plain => rfl
  | double => rfl
  | literal => rfl

/-- A key with its colon. -/
def key (n : Nat) (k : String) : List Char := if isShortKey k then shortKey k else longKey n k

/-- A value behind its key. -/
def valueBehind (n : Nat) (k : String) (t : Tree) : List Char :=
  if isShortKey k then behindKey n t else nested n t

theorem key_short {k : String} (short : isShortKey k = true) (m n : Nat) (r : List Char) :
    key n k ++ r = (inline k.toList).text m ++ ':' :: r := by
  rw [key, if_pos short, (shortKey_eq short m).2, List.append_assoc]
  rfl

theorem key_long {k : String} (long : ¬ isShortKey k = true) (n : Nat) (r : List Char) :
    key n k ++ r = '?' :: ' ' :: (scalar (n + 2) k ++ (indent n ++ ':' :: r)) := by
  rw [key, if_neg long]
  simp [longKey]

theorem opening_key (n : Nat) (k : String) (r : List Char) :
    opening (key n k ++ r) =
      if isShortKey k then (inline k.toList).opening else .longKey := by
  by_cases short : isShortKey k = true
  · rw [key_short short 0, if_pos short, Inline.opening_text_append (shortKey_eq short 0).1]
  · rw [key_long short, if_neg short]
    rfl

/-- A key is neither blank nor an item of a sequence. -/
theorem opening_key_ne (n : Nat) (k : String) (r : List Char) :
    opening (key n k ++ r) ≠ .blank ∧ opening (key n k ++ r) ≠ .literal ∧
      opening (key n k ++ r) ≠ .item := by
  rw [opening_key]
  split
  · obtain ⟨noBlank, noLiteral, noItem, -⟩ := (inline k.toList).opening_ne
    exact ⟨noBlank, noLiteral, noItem⟩
  · decide

/-- Keys can be read off where a space or a line break follows the colon. -/
theorem key_append_inj {n : Nat} {k k' : String} {r r' : List Char}
    (hr : r.head?.any isSeparator = true) (hr' : r'.head?.any isSeparator = true)
    (same : key n k ++ r = key n k' ++ r') : k = k' ∧ r = r' := by
  have openings := congrArg opening same
  rw [opening_key, opening_key] at openings
  by_cases short : isShortKey k = true <;> by_cases short' : isShortKey k' = true
  · rw [key_short short 0, key_short short' 0] at same
    obtain ⟨text, -, rest⟩ := Inline.text_append_inj (shortKey_eq short 0).1
      (shortKey_eq short' 0).1 (.inr ⟨rfl, hr⟩) (.inr ⟨rfl, hr'⟩) same
    exact ⟨String.toList_inj.1 (inline_inj text), rest⟩
  · rw [if_pos short, if_neg short'] at openings
    exact absurd openings (inline k.toList).opening_ne.2.2.2
  · rw [if_neg short, if_pos short'] at openings
    exact absurd openings.symm (inline k'.toList).opening_ne.2.2.2
  · rw [key_long short, key_long short'] at same
    have inner := (List.cons.inj (List.cons.inj same).2).2
    have colon : ∀ r, opening (':' :: r) ≠ .blank := by
      simp [opening, isSpaceOrBreak, isBreak]
    obtain ⟨rfl, rest⟩ := scalar_append_inj (dedent_indent (by omega) (colon r))
      (dedent_indent (by omega) (colon r')) inner
    exact ⟨rfl, (List.cons.inj (List.append_cancel_left rest)).2⟩

/-! ## Items and entries -/

/-- The items behind one of them. -/
def itemsBehind (n : Nat) : List Tree → List Char
  | [] => []
  | t :: items => indent n ++ array n (t :: items)

/-- The entries behind one of them. -/
def entriesBehind (n : Nat) : List (String × Tree) → List Char
  | [] => []
  | e :: entries => indent n ++ map n (e :: entries)

theorem array_cons (n : Nat) (t : Tree) (items : List Tree) :
    array n (t :: items) = '-' :: (nested n t ++ itemsBehind n items) := by
  cases items <;> rw [array] <;> rfl

theorem map_cons (n : Nat) (k : String) (t : Tree) (entries : List (String × Tree)) :
    map n ((k, t) :: entries) = key n k ++ (valueBehind n k t ++ entriesBehind n entries) := by
  cases short : isShortKey k <;> cases entries <;>
    simp [map, key, valueBehind, entriesBehind, short]

theorem block_cases (t : Tree) :
    IsLeaf t ∨ (∃ x items, t = .array (x :: items)) ∨
      ∃ k u entries, t = .map ((k, u) :: entries) := by
  cases t with
  | text s => exact .inl trivial
  | boolean b => exact .inl trivial
  | array items =>
    cases items with
    | nil => exact .inl rfl
    | cons x items => exact .inr (.inl ⟨x, items, rfl⟩)
  | map entries =>
    cases entries with
    | nil => exact .inl rfl
    | cons e entries => exact .inr (.inr ⟨e.1, e.2, entries, rfl⟩)

theorem nested_leaf {t : Tree} (h : IsLeaf t) (n : Nat) : nested n t = leaf n t := by
  cases t with
  | text s => rfl
  | boolean b => rfl
  | array items => cases h; rfl
  | map entries => cases h; rfl

theorem behindKey_leaf {t : Tree} (h : IsLeaf t) (n : Nat) : behindKey n t = leaf n t := by
  cases t with
  | text s => rfl
  | boolean b => rfl
  | array items => cases h; rfl
  | map entries => cases h; rfl

theorem leaf_cons (n : Nat) (t : Tree) : ∃ s, leaf n t = ' ' :: s := by
  cases t with
  | text s => exact ⟨_, rfl⟩
  | boolean b => cases b <;> exact ⟨_, rfl⟩
  | array items => exact ⟨_, rfl⟩
  | map entries => exact ⟨_, rfl⟩

theorem nested_cons (n : Nat) (t : Tree) : ∃ s, nested n t = ' ' :: s := by
  rcases block_cases t with leaf | ⟨x, items, rfl⟩ | ⟨k, u, entries, rfl⟩
  · rw [nested_leaf leaf]
    exact leaf_cons n t
  · exact ⟨_, by rw [nested]⟩
  · exact ⟨_, by rw [nested]⟩

/-- The value behind a key begins with a space or a line break. -/
theorem head?_valueBehind (n : Nat) (k : String) (t : Tree) (r : List Char) :
    (valueBehind n k t ++ r).head?.any isSeparator = true := by
  obtain ⟨s, space⟩ := nested_cons n t
  rw [valueBehind]
  split
  · rcases block_cases t with leaf | ⟨x, items, rfl⟩ | ⟨k, u, entries, rfl⟩
    · rw [behindKey_leaf leaf, ← nested_leaf leaf, space]
      rfl
    · rw [behindKey]
      rfl
    · rw [behindKey]
      rfl
  · rw [space]
    rfl

theorem opening_array (n : Nat) (t : Tree) (items : List Tree) (r : List Char) :
    opening (array n (t :: items) ++ r) = .item := by
  obtain ⟨s, same⟩ := nested_cons n t
  rw [array_cons, same]
  rfl

theorem opening_map (n : Nat) (e : String × Tree) (entries : List (String × Tree))
    (r : List Char) :
    opening (map n (e :: entries) ++ r) ≠ .blank ∧ opening (map n (e :: entries) ++ r) ≠ .literal ∧
      opening (map n (e :: entries) ++ r) ≠ .item := by
  rw [map_cons, List.append_assoc]
  exact opening_key_ne n e.1 _

/-! ## Leaves, sequences and mappings differ -/

theorem leaf_append_ne_array {m n : Nat} {t x : Tree} {items : List Tree} {r r' : List Char} :
    leaf n t ++ r ≠ ' ' :: (array m (x :: items) ++ r') := by
  intro same
  have item := opening_array m x items r'
  rcases opening_leaf same with block | ⟨-, -, shown⟩
  · cases block.symm.trans item
  · exact (leafInline t).opening_ne.2.2.1 (shown.symm.trans item)

/-- The colon of a key does not end a scalar where a leaf ends it. -/
theorem leaf_append_ne_map {m n : Nat} {t u : Tree} {k : String}
    {entries : List (String × Tree)} {r r' : List Char} :
    leaf n t ++ r ≠ ' ' :: (map m ((k, u) :: entries) ++ r') := by
  intro same
  rcases opening_leaf same with block | ⟨valid, line, shown⟩
  · exact (opening_map m (k, u) entries r').2.1 block
  · rw [map_cons, List.append_assoc] at line shown
    by_cases short : isShortKey k = true
    · rw [key_short short (n + 2), List.append_assoc] at line
      have separates := head?_valueBehind m k u (entriesBehind m entries ++ r')
      have ends := (Inline.text_append_inj (shortKey_eq short 0).1 valid (.inr ⟨rfl, separates⟩)
        (.inl rfl) line).2.1
      cases ends
    · rw [opening_key, if_neg short] at shown
      exact (leafInline t).opening_ne.2.2.2 shown.symm

theorem array_append_ne_map {m n : Nat} {x : Tree} {items : List Tree} {e : String × Tree}
    {entries : List (String × Tree)} {r r' : List Char} :
    array m (x :: items) ++ r ≠ map n (e :: entries) ++ r' := by
  intro same
  have item := opening_array m x items r
  rw [same] at item
  exact (opening_map n e entries r').2.2 item

/-- The items and the entries of blocks behind a key stand at different indentations. -/
theorem itemsBehind_ne_entriesBehind {n : Nat} {x : Tree} {items : List Tree} {e : String × Tree}
    {entries : List (String × Tree)} {r r' : List Char} :
    itemsBehind n (x :: items) ++ r ≠ entriesBehind (n + 2) (e :: entries) ++ r' := by
  intro same
  rw [itemsBehind, entriesBehind, List.append_assoc, List.append_assoc] at same
  have levels := (indent_append_inj (by rw [opening_array]; decide)
    (opening_map (n + 2) e entries r').1 same).1
  omega

theorem nested_leaf_append {n : Nat} {t u : Tree} {r r' : List Char} (ht : IsLeaf t)
    (hr : Dedent (n + 1) r) (hr' : Dedent (n + 1) r')
    (same : nested n t ++ r = nested n u ++ r') : t = u ∧ r = r' := by
  rw [nested_leaf ht] at same
  rcases block_cases u with hu | ⟨x, items, rfl⟩ | ⟨k, v, entries, rfl⟩
  · rw [nested_leaf hu] at same
    exact leaf_append_inj ht hu (hr.mono (Nat.le_succ _)) (hr'.mono (Nat.le_succ _)) same
  · rw [nested] at same
    exact absurd same leaf_append_ne_array
  · rw [nested] at same
    exact absurd same leaf_append_ne_map

theorem behindKey_leaf_append {n : Nat} {t u : Tree} {r r' : List Char} (ht : IsLeaf t)
    (hr : Dedent (n + 1) r) (hr' : Dedent (n + 1) r')
    (same : behindKey n t ++ r = behindKey n u ++ r') : t = u ∧ r = r' := by
  rw [behindKey_leaf ht] at same
  rcases block_cases u with hu | ⟨x, items, rfl⟩ | ⟨k, v, entries, rfl⟩
  · rw [behindKey_leaf hu] at same
    exact leaf_append_inj ht hu (hr.mono (Nat.le_succ _)) (hr'.mono (Nat.le_succ _)) same
  · obtain ⟨s, space⟩ := leaf_cons n t
    rw [behindKey, space] at same
    cases (List.cons.inj same).1
  · obtain ⟨s, space⟩ := leaf_cons n t
    rw [behindKey, space] at same
    cases (List.cons.inj same).1

/-! ## The ends of blocks -/

theorem dedent_itemsBehind {n : Nat} {items : List Tree} {r : List Char} (h : Dedent (n + 1) r) :
    Dedent (n + 1) (itemsBehind n items ++ r) := by
  cases items with
  | nil => exact h
  | cons t items =>
    rw [itemsBehind, List.append_assoc]
    exact dedent_indent (Nat.lt_succ_self n) (by rw [opening_array]; decide)

theorem dedent_entriesBehind {n : Nat} {r : List Char} (h : Dedent n r)
    (entries : List (String × Tree)) :
    Dedent (n + 1) (entriesBehind n entries ++ r) ∧ ¬ Item n (entriesBehind n entries ++ r) := by
  cases entries with
  | nil => exact ⟨h.mono (Nat.le_succ n), h.not_item⟩
  | cons e entries =>
    obtain ⟨noBlank, -, noItem⟩ := opening_map n e entries r
    rw [entriesBehind, List.append_assoc]
    refine ⟨dedent_indent (Nat.lt_succ_self n) noBlank, ?_⟩
    rintro ⟨rest, same, item⟩
    rw [List.append_cancel_left same] at noItem
    exact noItem item

theorem item_itemsBehind (n : Nat) (t : Tree) (items : List Tree) (r : List Char) :
    Item n (itemsBehind n (t :: items) ++ r) :=
  ⟨array n (t :: items) ++ r, by rw [itemsBehind, List.append_assoc], opening_array n t items r⟩

theorem not_dedent_entriesBehind (n : Nat) (e : String × Tree) (entries : List (String × Tree))
    (r : List Char) : ¬ Dedent n (entriesBehind n (e :: entries) ++ r) := by
  obtain ⟨c, rest, same, -, -⟩ := not_blank (opening_map n e entries r).1
  rw [entriesBehind, List.append_assoc, same]
  exact not_dedent_indent n c rest

theorem itemsBehind_cons (n : Nat) (t : Tree) (items : List Tree) (r : List Char) :
    itemsBehind n (t :: items) ++ r =
      indent n ++ '-' :: (nested n t ++ (itemsBehind n items ++ r)) := by
  rw [itemsBehind, array_cons]
  simp

theorem entriesBehind_cons (n : Nat) (k : String) (t : Tree) (entries : List (String × Tree))
    (r : List Char) :
    entriesBehind n ((k, t) :: entries) ++ r =
      indent n ++ (key n k ++ (valueBehind n k t ++ (entriesBehind n entries ++ r))) := by
  rw [entriesBehind, map_cons]
  simp

/-! ## Trees -/

mutual

/-- A value behind a `-` or the `:` of a long key can be read off. -/
theorem nested_append_inj (t u : Tree) {n : Nat} {r r' : List Char} (hr : Dedent (n + 1) r)
    (hr' : Dedent (n + 1) r') (same : nested n t ++ r = nested n u ++ r') : t = u ∧ r = r' := by
  have inner : Dedent (n + 2) r ∧ Dedent (n + 2) r' := ⟨hr.mono (by omega), hr'.mono (by omega)⟩
  match t with
  | .text s => exact nested_leaf_append trivial hr hr' same
  | .boolean b => exact nested_leaf_append trivial hr hr' same
  | .array [] => exact nested_leaf_append rfl hr hr' same
  | .map [] => exact nested_leaf_append rfl hr hr' same
  | .array (x :: items) =>
    rcases block_cases u with leaf | ⟨y, others, rfl⟩ | ⟨k, v, entries, rfl⟩
    · obtain ⟨rfl, rfl⟩ := nested_leaf_append leaf hr' hr same.symm
      exact ⟨rfl, rfl⟩
    · rw [nested, nested] at same
      have lines := congrArg (indent (n + 2) ++ ·) (List.cons.inj same).2
      obtain ⟨list, rest⟩ := itemsBehind_append_inj (x :: items) (y :: others)
        (inner.1.mono (Nat.le_succ _)) (inner.2.mono (Nat.le_succ _)) inner.1.not_item
        inner.2.not_item (by simpa [itemsBehind] using lines)
      exact ⟨congrArg Tree.array list, rest⟩
    · rw [nested, nested] at same
      exact absurd (List.cons.inj same).2 array_append_ne_map
  | .map (e :: entries) =>
    rcases block_cases u with leaf | ⟨y, others, rfl⟩ | ⟨k, v, others, rfl⟩
    · obtain ⟨rfl, rfl⟩ := nested_leaf_append leaf hr' hr same.symm
      exact ⟨rfl, rfl⟩
    · rw [nested, nested] at same
      exact absurd (List.cons.inj same).2.symm array_append_ne_map
    · rw [nested, nested] at same
      have lines := congrArg (indent (n + 2) ++ ·) (List.cons.inj same).2
      obtain ⟨list, rest⟩ := entriesBehind_append_inj (e :: entries) ((k, v) :: others)
        inner.1 inner.2 (by simpa [entriesBehind] using lines)
      exact ⟨congrArg Tree.map list, rest⟩

/-- A value behind a short key can be read off. -/
theorem behindKey_append_inj (t u : Tree) {n : Nat} {r r' : List Char} (hr : Dedent (n + 1) r)
    (hr' : Dedent (n + 1) r') (noItem : ¬ Item n r) (noItem' : ¬ Item n r')
    (same : behindKey n t ++ r = behindKey n u ++ r') : t = u ∧ r = r' := by
  match t with
  | .text s => exact behindKey_leaf_append trivial hr hr' same
  | .boolean b => exact behindKey_leaf_append trivial hr hr' same
  | .array [] => exact behindKey_leaf_append rfl hr hr' same
  | .map [] => exact behindKey_leaf_append rfl hr hr' same
  | .array (x :: items) =>
    rcases block_cases u with leaf | ⟨y, others, rfl⟩ | ⟨k, v, entries, rfl⟩
    · obtain ⟨rfl, rfl⟩ := behindKey_leaf_append leaf hr' hr same.symm
      exact ⟨rfl, rfl⟩
    · rw [behindKey, behindKey] at same
      obtain ⟨list, rest⟩ := itemsBehind_append_inj (x :: items) (y :: others) hr hr' noItem
        noItem' (List.cons.inj same).2
      exact ⟨congrArg Tree.array list, rest⟩
    · rw [behindKey, behindKey] at same
      exact absurd (List.cons.inj same).2 itemsBehind_ne_entriesBehind
  | .map (e :: entries) =>
    rcases block_cases u with leaf | ⟨y, others, rfl⟩ | ⟨k, v, others, rfl⟩
    · obtain ⟨rfl, rfl⟩ := behindKey_leaf_append leaf hr' hr same.symm
      exact ⟨rfl, rfl⟩
    · rw [behindKey, behindKey] at same
      exact absurd (List.cons.inj same).2.symm itemsBehind_ne_entriesBehind
    · rw [behindKey, behindKey] at same
      obtain ⟨list, rest⟩ := entriesBehind_append_inj (e :: entries) ((k, v) :: others)
        (hr.mono (Nat.le_succ _)) (hr'.mono (Nat.le_succ _)) (List.cons.inj same).2
      exact ⟨congrArg Tree.map list, rest⟩

/-- The items of a sequence can be read off where no item follows them. -/
theorem itemsBehind_append_inj (items others : List Tree) {n : Nat} {r r' : List Char}
    (hr : Dedent (n + 1) r) (hr' : Dedent (n + 1) r') (noItem : ¬ Item n r) (noItem' : ¬ Item n r')
    (same : itemsBehind n items ++ r = itemsBehind n others ++ r') : items = others ∧ r = r' := by
  match items, others with
  | [], [] => exact ⟨rfl, same⟩
  | [], u :: others =>
    rw [show r = _ from same] at noItem
    exact absurd (item_itemsBehind n u others r') noItem
  | t :: items, [] =>
    rw [show r' = _ from same.symm] at noItem'
    exact absurd (item_itemsBehind n t items r) noItem'
  | t :: items, u :: others =>
    rw [itemsBehind_cons, itemsBehind_cons] at same
    obtain ⟨first, behind⟩ := nested_append_inj t u (dedent_itemsBehind hr)
      (dedent_itemsBehind hr') (List.cons.inj (List.append_cancel_left same)).2
    obtain ⟨list, rest⟩ := itemsBehind_append_inj items others hr hr' noItem noItem' behind
    exact ⟨by rw [first, list], rest⟩

/-- The entries of a mapping can be read off where the text behind them is dedented. -/
theorem entriesBehind_append_inj (entries others : List (String × Tree)) {n : Nat}
    {r r' : List Char} (hr : Dedent n r) (hr' : Dedent n r')
    (same : entriesBehind n entries ++ r = entriesBehind n others ++ r') :
    entries = others ∧ r = r' := by
  match entries, others with
  | [], [] => exact ⟨rfl, same⟩
  | [], e :: others =>
    rw [show r = _ from same] at hr
    exact absurd hr (not_dedent_entriesBehind n e others r')
  | e :: entries, [] =>
    rw [show r' = _ from same.symm] at hr'
    exact absurd hr' (not_dedent_entriesBehind n e entries r)
  | (k, t) :: entries, (k', u) :: others =>
    obtain ⟨dedent, noItem⟩ := dedent_entriesBehind hr entries
    obtain ⟨dedent', noItem'⟩ := dedent_entriesBehind hr' others
    rw [entriesBehind_cons, entriesBehind_cons] at same
    obtain ⟨keys, inner⟩ := key_append_inj (head?_valueBehind n k t _) (head?_valueBehind n k' u _)
      (List.append_cancel_left same)
    have values : t = u ∧ entriesBehind n entries ++ r = entriesBehind n others ++ r' := by
      rw [← keys, valueBehind, valueBehind] at inner
      split at inner
      · exact behindKey_append_inj t u dedent dedent' noItem noItem' inner
      · exact nested_append_inj t u dedent dedent' inner
    obtain ⟨list, rest⟩ := entriesBehind_append_inj entries others hr hr' values.2
    exact ⟨by rw [keys, values.1, list], rest⟩

end

/-! ## Documents -/

theorem encode_eq (doc : Document) :
    (encode doc).toList =
      if (entryTrees doc).isEmpty then ['{', '}', '\n'] else entriesBehind 0 (entryTrees doc) := by
  rw [encode]
  cases entryTrees doc with
  | nil => rw [String.toList_ofList]; rfl
  | cons e entries => rw [String.toList_ofList]; rfl

theorem map_ne_empty (e : String × Tree) (entries : List (String × Tree)) :
    ['{', '}', '\n'] ≠ entriesBehind 0 (e :: entries) := by
  have apart : leaf 0 (.map []) ++ [] ≠ ' ' :: (map 0 ((e.1, e.2) :: entries) ++ []) :=
    leaf_append_ne_map
  rw [List.append_nil, List.append_nil] at apart
  exact fun same => apart (congrArg (' ' :: ·) same)

theorem encode_inj {doc doc' : Document} (same : encode doc = encode doc') :
    entryTrees doc = entryTrees doc' := by
  have text := congrArg String.toList same
  rw [encode_eq, encode_eq] at text
  cases first : entryTrees doc with
  | nil =>
    cases second : entryTrees doc' with
    | nil => rfl
    | cons e entries =>
      rw [first, second] at text
      exact absurd text (map_ne_empty e entries)
  | cons e entries =>
    cases second : entryTrees doc' with
    | nil =>
      rw [first, second] at text
      exact absurd text.symm (map_ne_empty e entries)
    | cons e' entries' =>
      rw [first, second] at text
      exact (entriesBehind_append_inj (e :: entries) (e' :: entries') (.nil 0) (.nil 0)
        (congrArg (· ++ []) text)).1

/-- Two documents have the same text in YAML exactly if they are the same data, all maps in their
order.  In each place a value or a key has, no other value or key has the same text: a text is never
written like a truth value, an empty container or another text. -/
theorem encode_eq_encode_iff :
    (∀ doc doc' : Document, encode doc = encode doc' ↔ doc.tree = doc'.tree) ∧
      (∀ n, Function.Injective (nested n)) ∧ (∀ n, Function.Injective (behindKey n)) ∧
        ∀ n, Function.Injective (key n) := by
  have noItem : ∀ n, ¬ Item n [] := fun n => (Dedent.nil n).not_item
  refine ⟨fun doc doc' => ⟨fun same => ?_, fun same => ?_⟩, fun n t u same => ?_,
    fun n t u same => ?_, fun n k k' same => ?_⟩
  · rw [Document.tree, Document.tree, encode_inj same]
  · have entries : entryTrees doc = entryTrees doc' := Tree.map.inj same
    rw [encode, encode, entries]
  · exact (nested_append_inj t u (.nil (n + 1)) (.nil (n + 1)) (congrArg (· ++ []) same)).1
  · exact (behindKey_append_inj t u (.nil (n + 1)) (.nil (n + 1)) (noItem n) (noItem n)
      (congrArg (· ++ []) same)).1
  · have lines : key n k ++ ['\n'] = key n k' ++ ['\n'] := by rw [same]
    exact (key_append_inj rfl rfl lines).1

end BuildScript.Yaml
