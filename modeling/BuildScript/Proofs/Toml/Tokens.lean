import BuildScript.Proofs.Text
import BuildScript.Proofs.Toml.Strings
import BuildScript.Proofs.Toml.Mapping

/-!
# Tokens of TOML

A text in TOML 1.0 as a list of tokens, without its blanks and comments, and the tokens of the keys
and values that are written.
-/

namespace BuildScript.Toml

open Text

/-! ## Reading tokens -/

inductive Token where
  /-- A key without quotes, or a value in plain letters. -/
  | word (text : String)
  | string (text : String) (isLines : Bool)
  /-- A bracket, a brace, a comma, an equals sign or a dot. -/
  | mark (c : Char)
  | lineBreak

def marks : List Char := ['[', ']', '{', '}', ',', '=', '.']

theorem lineString?_length {escapes : Bool} {quote : Char} {s text rest : List Char}
    (h : lineString? escapes quote s = some (text, rest)) : rest.length < s.length := by
  fun_induction lineString? escapes quote s generalizing text with
  | case1 => cases h
  | case2 => cases h; exact Nat.lt_succ_self _
  | case3 c r _ _ d left _ shorter ih =>
    obtain ⟨⟨inner, _⟩, found, same⟩ := Option.map_eq_some_iff.1 h
    cases same
    exact Nat.lt_succ_of_lt (Nat.lt_trans (ih found) shorter)
  | case4 => cases h
  | case5 c r _ _ _ ih =>
    obtain ⟨⟨inner, _⟩, found, same⟩ := Option.map_eq_some_iff.1 h
    cases same
    exact Nat.lt_succ_of_lt (ih found)
  | case6 => cases h

theorem linesString?_length {escapes : Bool} {quote : Char} {quotes : Nat}
    {s text rest : List Char} (h : linesString? escapes quote quotes s = some (text, rest)) :
    rest.length ≤ s.length := by
  fun_induction linesString? escapes quote quotes s generalizing text with
  | case1 => cases h; exact Nat.le_refl _
  | case2 => cases h
  | case3 _ r _ ih => exact Nat.le_succ_of_le (ih h)
  | case4 => cases h
  | case5 => cases h; exact Nat.le_refl _
  | case6 _ c r _ _ _ d left _ shorter ih =>
    obtain ⟨⟨inner, _⟩, found, same⟩ := Option.map_eq_some_iff.1 h
    cases same
    exact Nat.le_succ_of_le (Nat.le_trans (ih found) (Nat.le_of_lt shorter))
  | case7 _ c r _ _ _ _ left _ shorter ih =>
    obtain ⟨⟨inner, _⟩, found, same⟩ := Option.map_eq_some_iff.1 h
    cases same
    exact Nat.le_succ_of_le (Nat.le_trans (ih found) shorter)
  | case8 => cases h
  | case9 _ c r _ _ _ _ shorter ih =>
    obtain ⟨⟨inner, _⟩, found, same⟩ := Option.map_eq_some_iff.1 h
    cases same
    exact Nat.le_succ_of_le (Nat.le_trans (ih found) shorter)
  | case10 _ c r _ _ _ _ _ ih =>
    obtain ⟨⟨inner, _⟩, found, same⟩ := Option.map_eq_some_iff.1 h
    cases same
    exact Nat.le_succ_of_le (ih found)
  | case11 => cases h

theorem dropLineBreak_length (s : List Char) : (dropLineBreak s).length ≤ s.length := by
  unfold dropLineBreak
  split <;> simp +arith

theorem string?_length {quote : Char} {s rest : List Char} {text : List Char × Bool}
    (h : string? quote s = some (text, rest)) : rest.length ≤ s.length := by
  have line : ∀ {t : List Char} {result},
      (lineString? (quote == '"') quote t).map (fun found => ((found.1, false), found.2)) =
        some (result, rest) → rest.length ≤ t.length := by
    intro t result single
    obtain ⟨⟨inner, left⟩, found, same⟩ := Option.map_eq_some_iff.1 single
    cases same
    exact Nat.le_of_lt (lineString?_length found)
  unfold string? at h
  split at h
  · next c d r =>
    split at h
    · obtain ⟨⟨inner, left⟩, found, same⟩ := Option.map_eq_some_iff.1 h
      cases same
      have := Nat.le_trans (linesString?_length found) (dropLineBreak_length r)
      exact Nat.le_succ_of_le (Nat.le_succ_of_le this)
    · exact line h
  · exact line h

/-- The tokens of the text.  A character that begins no token makes it invalid. -/
def tokens : List Char → Option (List Token)
  | [] => some []
  | c :: r =>
    if isIndent c then tokens r
    else if c == '\n' then (tokens r).map (.lineBreak :: ·)
    else if c == '\r' && r.head? == some '\n' then
      have := (List.tail_suffix r).length_le
      (tokens r.tail).map (.lineBreak :: ·)
    else if c == '#' then
      have := (List.dropWhile_suffix isStringChar (l := r)).length_le
      tokens (r.dropWhile isStringChar)
    else if marks.contains c then (tokens r).map (.mark c :: ·)
    else if isQuote c then
      match h : string? c r with
      | some ((text, isLines), rest) =>
        have := string?_length h
        (tokens rest).map (.string (String.ofList text) isLines :: ·)
      | none => none
    else if isBareKeyChar c then
      have := (List.dropWhile_suffix isBareKeyChar (l := r)).length_le
      (tokens (r.dropWhile isBareKeyChar)).map
        (.word (String.ofList (c :: r.takeWhile isBareKeyChar)) :: ·)
    else none
  termination_by s => s.length

/-! ## Single tokens -/

variable {r rest : List Char}

theorem tokens_space (r : List Char) : tokens (' ' :: r) = tokens r := by
  rw [tokens]
  rfl

theorem tokens_lineBreak (r : List Char) :
    tokens ('\n' :: r) = (tokens r).map (.lineBreak :: ·) := by
  rw [tokens]
  rfl

theorem tokens_mark {c : Char} (h : c ∈ marks) (r : List Char) :
    tokens (c :: r) = (tokens r).map (.mark c :: ·) := by
  have : c = '[' ∨ c = ']' ∨ c = '{' ∨ c = '}' ∨ c = ',' ∨ c = '=' ∨ c = '.' := by
    simpa [marks] using h
  rcases this with rfl | rfl | rfl | rfl | rfl | rfl | rfl <;> (rw [tokens]; rfl)

/-- The character is none of those that are looked for before words and strings. -/
def BeginsText (c : Char) : Prop :=
  isIndent c = false ∧ c ≠ '\n' ∧ c ≠ '\r' ∧ c ≠ '#' ∧ c ∉ marks

theorem tokens_of_beginsText {c : Char} (h : BeginsText c) (quoted : isQuote c = false)
    (bare : isBareKeyChar c = true) (r : List Char) :
    tokens (c :: r) = (tokens (r.dropWhile isBareKeyChar)).map
      (.word (String.ofList (c :: r.takeWhile isBareKeyChar)) :: ·) := by
  obtain ⟨indent, lineFeed, carriageReturn, comment, mark⟩ := h
  rw [tokens]
  simp [indent, lineFeed, carriageReturn, comment, mark, quoted, bare]

theorem tokens_quote {quote : Char} (h : isQuote quote = true) {text : List Char}
    {isLines : Bool} (found : string? quote r = some ((text, isLines), rest)) :
    tokens (quote :: r) = (tokens rest).map (.string (String.ofList text) isLines :: ·) := by
  have begins : BeginsText quote := by
    rcases eq_of_isQuote h with rfl | rfl <;>
      exact ⟨by decide, by decide, by decide, by decide, by decide⟩
  obtain ⟨indent, lineFeed, carriageReturn, comment, mark⟩ := begins
  rw [tokens]
  simp only [indent, beq_iff_eq, lineFeed, carriageReturn, comment, mark, h, List.contains_eq_mem,
    Bool.false_eq_true, if_false, decide_false, Bool.and_eq_true, false_and, if_true]
  split
  · next same => rw [found] at same; cases same; rfl
  · next none => rw [found] at none; cases none

/-- The text that follows a word or a string does not go on with it. -/
def EndsToken (rest : List Char) : Prop :=
  ∀ c ∈ rest.head?, isBareKeyChar c = false ∧ isQuote c = false

theorem beginsText_of_isBareKeyChar {c : Char} (h : isBareKeyChar c = true) :
    BeginsText c ∧ isQuote c = false := by
  have other : ∀ d, isBareKeyChar d = false → c ≠ d := by
    rintro d no rfl
    rw [no] at h
    cases h
  refine ⟨⟨?_, other _ (by decide), other _ (by decide), other _ (by decide), ?_⟩, ?_⟩
  · simp [isIndent, other ' ' (by decide), other '\t' (by decide)]
  · have none : (marks.any isBareKeyChar) = false := by decide
    rw [List.any_eq_false] at none
    exact fun mark => none c mark h
  · simp [isQuote, other '"' (by decide), other '\'' (by decide)]

theorem tokens_word {word : List Char} (nonempty : word ≠ [])
    (h : ∀ c ∈ word, isBareKeyChar c = true) (stop : EndsToken rest) :
    tokens (word ++ rest) = (tokens rest).map (.word (String.ofList word) :: ·) := by
  obtain ⟨c, word, rfl⟩ := List.exists_cons_of_ne_nil nonempty
  have first := h c (by simp)
  have others : ∀ d ∈ word, isBareKeyChar d = true := fun d hd => h d (by simp [hd])
  obtain ⟨begins, quoted⟩ := beginsText_of_isBareKeyChar first
  have behind : (word ++ rest).dropWhile isBareKeyChar = rest := by
    rw [List.dropWhile_append_of_pos others]
    cases rest with
    | nil => rfl
    | cons d rest => simp [(stop d rfl).1]
  have inside : (word ++ rest).takeWhile isBareKeyChar = word := by
    rw [List.takeWhile_append_of_pos others]
    cases rest with
    | nil => simp
    | cons d rest => simp [(stop d rfl).1]
  rw [List.cons_append, tokens_of_beginsText begins quoted first, behind, inside]

/-! ## Keys and strings -/

def keyToken (k : String) : Token :=
  if !k.toList.isEmpty && k.toList.all isBareKeyChar then .word k else .string k false

def textToken (s : String) : Token := .string s (style s.toList).isLines

theorem Style.quote_ne {style : Style} (stop : EndsToken rest) :
    ∀ c ∈ rest.head?, c ≠ style.quote := by
  rintro c hc rfl
  have quoted := (stop _ hc).2
  cases style <;> cases quoted

theorem tokens_quotedIn {style : Style} {s : List Char} (fits : style.Fits s)
    (stop : EndsToken rest) :
    tokens (quotedIn style s ++ rest) =
      (tokens rest).map (.string (String.ofList s) style.isLines :: ·) := by
  obtain ⟨body, whole, found⟩ := string?_quotedIn fits (Style.quote_ne stop)
  rw [whole, tokens_quote (by cases style <;> rfl) found]

theorem tokens_quoted (s : String) (stop : EndsToken rest) :
    tokens (quoted s ++ rest) = (tokens rest).map (textToken s :: ·) := by
  rw [quoted, tokens_quotedIn (style_fits s.toList) stop, String.ofList_toList]
  rfl

theorem tokens_key (k : String) (stop : EndsToken rest) :
    tokens (key k ++ rest) = (tokens rest).map (keyToken k :: ·) := by
  simp only [key, keyToken]
  split
  · next bare =>
    obtain ⟨nonempty, all⟩ : k.toList ≠ [] ∧ ∀ c ∈ k.toList, isBareKeyChar c = true := by
      simpa using bare
    rw [tokens_word nonempty all stop, String.ofList_toList]
  · split
    · have fits : Style.basic.Fits k.toList := trivial
      rw [tokens_quotedIn fits stop, String.ofList_toList]
      rfl
    · next literal =>
      have fits : Style.literal.Fits k.toList := by
        simp only [Bool.or_eq_true, not_or, Bool.not_eq_true, List.any_eq_false] at literal
        obtain ⟨⟨shown, -⟩, quote⟩ := literal
        intro c member
        obtain ⟨control, inLine⟩ : isControl c = false ∧ c ≠ '\n' := by simpa using shown c member
        refine ⟨(isStringChar_of_not_isControl control).resolve_right inLine, ?_⟩
        rintro rfl
        simp [member] at quote
      rw [tokens_quotedIn fits stop, String.ofList_toList]
      rfl

/-! ## Values -/

mutual

def valueTokens : Tree → List Token
  | .text s => [textToken s]
  | .boolean b => [.word (if b then "true" else "false")]
  | .array [] => [.mark '[', .mark ']']
  | .array (t :: items) => .mark '[' :: (valueTokens t ++ (otherTokens items ++ [.mark ']']))
  | .map [] => [.mark '{', .mark '}']
  | .map ((k, t) :: entries) =>
    .mark '{' :: keyToken k :: .mark '=' ::
      (valueTokens t ++ (otherEntryTokens entries ++ [.mark '}']))

/-- The items of an array behind its first one. -/
def otherTokens : List Tree → List Token
  | [] => []
  | t :: items => .mark ',' :: (valueTokens t ++ otherTokens items)

/-- The entries of an inline table behind its first one. -/
def otherEntryTokens : List (String × Tree) → List Token
  | [] => []
  | (k, t) :: entries =>
    .mark ',' :: keyToken k :: .mark '=' :: (valueTokens t ++ otherEntryTokens entries)

end

/-- The text has the given tokens when the other text follows it. -/
def Lexes (s : List Char) (ts : List Token) (rest : List Char) : Prop :=
  tokens (s ++ rest) = (tokens rest).map (ts ++ ·)

theorem Lexes.append {s s' : List Char} {ts ts' : List Token} (first : Lexes s ts (s' ++ rest))
    (more : Lexes s' ts' rest) : Lexes (s ++ s') (ts ++ ts') rest := by
  unfold Lexes at first more ⊢
  rw [List.append_assoc, first, more, Option.map_map]
  congr 1
  funext others
  simp

theorem lexes_nil : Lexes [] [] rest := by
  simp [Lexes]

theorem lexes_space : Lexes [' '] [] rest := by
  simp [Lexes, tokens_space]

theorem lexes_mark {c : Char} (h : c ∈ marks) : Lexes [c] [.mark c] rest := tokens_mark h rest

theorem lexes_key (k : String) (stop : EndsToken rest) : Lexes (key k) [keyToken k] rest :=
  tokens_key k stop

theorem endsToken_cons {c : Char} (h : isBareKeyChar c = false ∧ isQuote c = false)
    (s : List Char) : EndsToken (c :: s) := by
  rintro d ⟨⟩
  exact h

/-- A comma ends the value before it. -/
theorem endsToken_others (parts : List (List Char)) (stop : EndsToken rest) :
    EndsToken (parts.flatMap ([',', ' '] ++ ·) ++ rest) := by
  cases parts with
  | nil => exact stop
  | cons part parts => exact endsToken_cons (by decide) _

theorem lexes_comma : Lexes [',', ' '] [.mark ','] rest :=
  Lexes.append (lexes_mark (by decide)) lexes_space

/-- A key and its value. -/
theorem lexes_setting (k : String) {s : List Char} {ts : List Token} (h : Lexes s ts rest) :
    Lexes (key k ++ " = ".toList ++ s) (keyToken k :: .mark '=' :: ts) rest := by
  have equals : Lexes " = ".toList [.mark '='] (s ++ rest) :=
    Lexes.append lexes_space (Lexes.append (lexes_mark (by decide)) lexes_space)
  exact ((lexes_key k (endsToken_cons (by decide) _)).append equals).append h

theorem value_array (v : Inline) (items : List Inline) :
    value (.array (v :: items)) =
      ['['] ++ (value v ++ ((array items).flatMap ([',', ' '] ++ ·) ++ [']'])) := by
  simp [value, array, joined_eq_append_flatMap]

theorem value_table (k : String) (v : Inline) (entries : List (String × Inline)) :
    value (.table ((k, v) :: entries)) =
      "\x7b ".toList ++ ((key k ++ " = ".toList ++ value v) ++
        ((inlineTable entries).flatMap ([',', ' '] ++ ·) ++ " \x7d".toList)) := by
  simp [value, inlineTable, joined_eq_append_flatMap]

mutual

theorem lexes_value (v : Inline) (rest : List Char) (stop : EndsToken rest) :
    Lexes (value v) (valueTokens v.tree) rest := by
  match v with
  | .text s => exact tokens_quoted s stop
  | .boolean b =>
    cases b with
    | true => exact tokens_word (by decide) (List.all_eq_true.1 (by decide)) stop
    | false => exact tokens_word (by decide) (List.all_eq_true.1 (by decide)) stop
  | .array [] => exact Lexes.append (lexes_mark (by decide)) (lexes_mark (by decide))
  | .array (v :: items) =>
    have closing : EndsToken (']' :: rest) := endsToken_cons (by decide) rest
    have others := (lexes_others items _ closing).append (lexes_mark (by decide))
    have stop : EndsToken ((array items).flatMap ([',', ' '] ++ ·) ++ [']'] ++ rest) := by
      rw [List.append_assoc]
      exact endsToken_others _ closing
    rw [value_array]
    exact (lexes_mark (by decide)).append ((lexes_value v _ stop).append others)
  | .table [] => exact Lexes.append (lexes_mark (by decide)) (lexes_mark (by decide))
  | .table ((k, v) :: entries) =>
    have closing : EndsToken (" \x7d".toList ++ rest) := endsToken_cons (by decide) _
    have last : Lexes " \x7d".toList [.mark '}'] rest :=
      Lexes.append lexes_space (lexes_mark (by decide))
    have others := (lexes_otherEntries entries _ closing).append last
    have stop : EndsToken
        ((inlineTable entries).flatMap ([',', ' '] ++ ·) ++ " \x7d".toList ++ rest) := by
      rw [List.append_assoc]
      exact endsToken_others _ closing
    have opening : ∀ rest, Lexes "\x7b ".toList [.mark '{'] rest :=
      fun rest => Lexes.append (lexes_mark (by decide)) lexes_space
    rw [value_table]
    exact (opening _).append ((lexes_setting k (lexes_value v _ stop)).append others)

theorem lexes_others (items : List Inline) (rest : List Char) (stop : EndsToken rest) :
    Lexes ((array items).flatMap ([',', ' '] ++ ·)) (otherTokens (inlineTrees items)) rest := by
  match items with
  | [] => exact lexes_nil
  | v :: items =>
    have first := lexes_value v _ (endsToken_others (array items) stop)
    exact (lexes_comma.append first).append (lexes_others items rest stop)

theorem lexes_otherEntries (entries : List (String × Inline)) (rest : List Char)
    (stop : EndsToken rest) :
    Lexes ((inlineTable entries).flatMap ([',', ' '] ++ ·))
      (otherEntryTokens (inlineEntryTrees entries)) rest := by
  match entries with
  | [] => exact lexes_nil
  | (k, v) :: entries =>
    have first := lexes_setting k (lexes_value v _ (endsToken_others (inlineTable entries) stop))
    exact (lexes_comma.append first).append (lexes_otherEntries entries rest stop)

end

end BuildScript.Toml
