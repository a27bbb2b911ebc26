import BuildScript.Format.Json
import BuildScript.Text
import BuildScript.Proofs.Escapes

/-!
# Tokens of JSON

The strings of JSON and its other tokens, each with a reader, and the tokens that the text of a
tree consists of.
-/

namespace BuildScript.Json

open Text Escape

/-! ## Strings -/

/-- The number that four hexadecimal digits write, and the text behind them. -/
def codeUnit? (s : List Char) : Option (Nat × List Char) :=
  if s.length < 4 then none else (hexNumber? (s.take 4)).map fun n => (n, s.drop 4)

/-- A character above U+FFFF from behind its first `\u`: two surrogates, each in an escape. -/
def surrogates? (s : List Char) : Option (Char × List Char) :=
  match codeUnit? s with
  | some (high, '\\' :: 'u' :: r) =>
    match codeUnit? r with
    | some (low, rest) =>
      if 0xD800 ≤ high && high < 0xDC00 && 0xDC00 ≤ low && low < 0xE000 then
        some (Char.ofNat (0x10000 + 0x400 * (high - 0xD800) + (low - 0xDC00)), rest)
      else none
    | none => none
  | _ => none

/-- The character that stands behind a backslash, and the text behind it. -/
def escaped? : List Char → Option (Char × List Char)
  | '"' :: r => some ('"', r)
  | '\\' :: r => some ('\\', r)
  | '/' :: r => some ('/', r)
  | 'b' :: r => some ('\x08', r)
  | 'f' :: r => some ('\x0C', r)
  | 'n' :: r => some ('\n', r)
  | 'r' :: r => some ('\r', r)
  | 't' :: r => some ('\t', r)
  | 'u' :: r => (scalar? 4 r).or (surrogates? r)
  | _ => none

theorem codeUnit?_length {s rest : List Char} {n : Nat} (h : codeUnit? s = some (n, rest)) :
    rest.length ≤ s.length := by
  unfold codeUnit? at h
  split at h
  · cases h
  · obtain ⟨m, -, same⟩ := Option.map_eq_some_iff.1 h
    cases same
    exact (List.drop_suffix 4 s).length_le

theorem surrogates?_length {s rest : List Char} {c : Char} (h : surrogates? s = some (c, rest)) :
    rest.length ≤ s.length := by
  unfold surrogates? at h
  split at h
  · next high r first =>
    split at h
    · next low last second =>
      split at h
      · obtain ⟨-, rfl⟩ : _ ∧ last = rest := by simpa using h
        have before := codeUnit?_length first
        have behind := codeUnit?_length second
        simp only [List.length_cons] at before
        omega
      · cases h
    · cases h
  · cases h

theorem escaped?_length {s rest : List Char} {c : Char} (h : escaped? s = some (c, rest)) :
    rest.length < s.length := by
  unfold escaped? at h
  split at h
  all_goals try (cases h; exact Nat.lt_succ_self _)
  · next r =>
    rcases Option.or_eq_some_iff.1 h with found | ⟨-, found⟩
    · exact Nat.lt_succ_of_le (scalar?_length found)
    · exact Nat.lt_succ_of_le (surrogates?_length found)
  · cases h

/-- The text of a string from behind its quote, and what follows it. -/
def string? : List Char → Option (List Char × List Char)
  | [] => none
  | c :: r =>
    if c = '"' then some ([], r)
    else if c = '\\' then
      match h : escaped? r with
      | some (d, rest) =>
        have := escaped?_length h
        prepend [d] (string? rest)
      | none => none
    else if ' ' ≤ c then prepend [c] (string? r)
    else none
  termination_by s => s.length

theorem string?_length {s text rest : List Char} (h : string? s = some (text, rest)) :
    rest.length < s.length := by
  fun_induction string? s generalizing text with
  | case1 => cases h
  | case2 => cases h; exact Nat.lt_succ_self _
  | case3 r _ d left _ shorter ih =>
    obtain ⟨inner, found, same⟩ := Option.map_eq_some_iff.1 h
    cases same
    have := ih found
    simp only [List.length_cons]
    omega
  | case4 => cases h
  | case5 c r _ _ _ ih =>
    obtain ⟨inner, found, same⟩ := Option.map_eq_some_iff.1 h
    cases same
    exact Nat.lt_succ_of_lt (ih found)
  | case6 => cases h

/-- A character of a string either stands for itself or is read behind a backslash. -/
theorem escape_cases (c : Char) :
    (escape c = [c] ∧ ' ' ≤ c ∧ c ≠ '"' ∧ c ≠ '\\') ∨
      ∃ e, escape c = '\\' :: e ∧ ∀ rest, escaped? (e ++ rest) = some (c, rest) := by
  unfold escape
  split
  all_goals try exact .inr ⟨_, rfl, fun rest => rfl⟩
  next quote backslash _ _ _ _ _ =>
    split
    · next control =>
      have small : c.toNat < 16 ^ 4 := by
        have : c.toNat < 32 := control
        omega
      refine .inr ⟨_, rfl, fun rest => ?_⟩
      exact congrArg (Option.or · _) (scalar?_padded (.inr rfl) small rest)
    · next shown => exact .inl ⟨rfl, Char.not_lt.1 shown, quote, backslash⟩

theorem string?_escaped (s rest : List Char) :
    string? (s.flatMap escape ++ '"' :: rest) = some (s, rest) := by
  induction s with
  | nil => rw [List.flatMap_nil, List.nil_append, string?, if_pos rfl]
  | cons c s ih =>
    rw [List.flatMap_cons, List.append_assoc]
    rcases escape_cases c with ⟨same, shown, quote, backslash⟩ | ⟨e, same, found⟩
    · rw [same, List.singleton_append, string?, if_neg quote, if_neg backslash, if_pos shown, ih]
      rfl
    · rw [same, List.cons_append, string?, if_neg (by decide), if_pos rfl]
      split
      · next taken =>
        cases (found _).symm.trans taken
        rw [ih]
        rfl
      · next none => cases (found _).symm.trans none

/-! ## Tokens -/

inductive Token where
  | mark (c : Char)
  | text (s : String)
  | boolean (b : Bool)

def marks : List Char := ['[', ']', '{', '}', ',', ':']

/-- A character that may stand between two tokens. -/
def isWhite (c : Char) : Bool := c == ' ' || c == '\n' || c == '\r' || c == '\t'

/-- The truth value that the text begins with, and the text behind it. -/
def boolean? (s : List Char) : Option (Bool × List Char) :=
  match after? "true".toList s with
  | some rest => some (true, rest)
  | none => (after? "false".toList s).map fun rest => (false, rest)

theorem boolean?_length {s rest : List Char} {b : Bool} (h : boolean? s = some (b, rest)) :
    rest.length < s.length := by
  unfold boolean? at h
  split at h
  · next left found =>
    cases h
    rw [after?_eq_some_iff.1 found]
    simp +arith
  · obtain ⟨left, found, same⟩ := Option.map_eq_some_iff.1 h
    cases same
    rw [after?_eq_some_iff.1 found]
    simp +arith

/-- The tokens of a text.  A number or a `null`, which no tree holds, makes it unreadable, as does
a character that begins no token. -/
def tokens : List Char → Option (List Token)
  | [] => some []
  | c :: r =>
    if isWhite c then tokens r
    else if marks.contains c then (tokens r).map (.mark c :: ·)
    else if c = '"' then
      match h : string? r with
      | some (text, rest) =>
        have := string?_length h
        (tokens rest).map (.text (String.ofList text) :: ·)
      | none => none
    else
      match h : boolean? (c :: r) with
      | some (b, rest) =>
        have := Nat.le_of_lt_succ (boolean?_length h)
        (tokens rest).map (.boolean b :: ·)
      | none => none
  termination_by s => s.length

/-- The text has the given tokens, whatever follows it. -/
def Lexes (s : List Char) (ts : List Token) : Prop :=
  ∀ rest, tokens (s ++ rest) = (tokens rest).map (ts ++ ·)

theorem lexes_nil : Lexes [] [] := fun rest => by simp

theorem Lexes.append {s s' : List Char} {ts ts' : List Token} (first : Lexes s ts)
    (more : Lexes s' ts') : Lexes (s ++ s') (ts ++ ts') := by
  intro rest
  rw [List.append_assoc, first, more, Option.map_map]
  congr 1
  funext others
  simp

theorem Lexes.whole {s : List Char} {ts : List Token} (h : Lexes s ts) : tokens s = some ts := by
  have := h []
  rw [List.append_nil] at this
  rw [this, tokens]
  simp

theorem lexes_white {c : Char} (h : isWhite c = true) : Lexes [c] [] := by
  intro rest
  rw [List.singleton_append, tokens, if_pos h]
  simp

theorem lexes_mark {c : Char} (h : c ∈ marks) : Lexes [c] [.mark c] := by
  intro rest
  have noWhite : ∀ m ∈ marks, isWhite m ≠ true := by simp [marks, isWhite]
  rw [List.singleton_append, tokens, if_neg (noWhite c h), if_pos (List.contains_iff_mem.2 h)]
  rfl

theorem lexes_quoted (s : String) : Lexes (quoted s) [.text s] := by
  intro rest
  have found := string?_escaped s.toList rest
  have body : quoted s ++ rest = '"' :: (s.toList.flatMap escape ++ '"' :: rest) := by
    simp [quoted]
  rw [body, tokens, if_neg (by decide), if_neg (by decide), if_pos rfl]
  split
  · next taken =>
    cases found.symm.trans taken
    rw [String.ofList_toList]
    rfl
  · next none => cases found.symm.trans none

theorem lexes_boolean (b : Bool) :
    Lexes (if b then "true" else "false").toList [.boolean b] := by
  intro rest
  cases b with
  | true =>
    show tokens ('t' :: 'r' :: 'u' :: 'e' :: rest) = _
    rw [tokens, if_neg (by decide), if_neg (by decide), if_neg (by decide)]
    rfl
  | false =>
    show tokens ('f' :: 'a' :: 'l' :: 's' :: 'e' :: rest) = _
    rw [tokens, if_neg (by decide), if_neg (by decide), if_neg (by decide)]
    rfl

theorem lexes_newLine (level : Nat) : Lexes (newLine level) [] := by
  have spaces : ∀ n, Lexes (List.replicate n ' ') [] := by
    intro n
    induction n with
    | zero => exact lexes_nil
    | succ n ih => exact (lexes_white (c := ' ') (by decide)).append ih
  exact (lexes_white (c := '\n') (by decide)).append (spaces (2 * level))

/-! ## Values -/

mutual

def valueTokens : Tree → List Token
  | .text s => [.text s]
  | .boolean b => [.boolean b]
  | .array items => .mark '[' :: (arrayTokens items ++ [.mark ']'])
  | .map entries => .mark '{' :: (mapTokens entries ++ [.mark '}'])

def arrayTokens : List Tree → List Token
  | [] => []
  | [t] => valueTokens t
  | t :: items => valueTokens t ++ .mark ',' :: arrayTokens items

def mapTokens : List (String × Tree) → List Token
  | [] => []
  | [(k, t)] => .text k :: .mark ':' :: valueTokens t
  | (k, t) :: entries => .text k :: .mark ':' :: (valueTokens t ++ .mark ',' :: mapTokens entries)

end

/-- A key with its value, on a line of its own. -/
theorem lexes_entry (level : Nat) (k : String) {s : List Char} {ts : List Token}
    (h : Lexes s ts) :
    Lexes (newLine level ++ quoted k ++ ':' :: ' ' :: s) (.text k :: .mark ':' :: ts) := by
  have colon : Lexes [':', ' '] [.mark ':'] :=
    (lexes_mark (by decide)).append (lexes_white (by decide))
  exact ((lexes_newLine level).append (lexes_quoted k)).append (colon.append h)

/-- The brackets around the lines of a container. -/
theorem Lexes.enclosed {opening closing : Char} (first : opening ∈ marks) (last : closing ∈ marks)
    {s : List Char} {ts : List Token} (h : Lexes s ts) (level : Nat) :
    Lexes (opening :: (s ++ newLine level ++ [closing]))
      (.mark opening :: (ts ++ [.mark closing])) := by
  have inner := (h.append (lexes_newLine level)).append (lexes_mark last)
  rw [List.append_nil] at inner
  exact (lexes_mark first).append inner

mutual

theorem lexes_value (level : Nat) (t : Tree) : Lexes (value level t) (valueTokens t) := by
  match t with
  | .text s => exact lexes_quoted s
  | .boolean b => exact lexes_boolean b
  | .array [] => exact (lexes_mark (by decide)).append (lexes_mark (by decide))
  | .array (t :: items) =>
    exact (lexes_array (level + 1) (t :: items)).enclosed (by decide) (by decide) level
  | .map [] => exact (lexes_mark (by decide)).append (lexes_mark (by decide))
  | .map (e :: entries) =>
    exact (lexes_map (level + 1) (e :: entries)).enclosed (by decide) (by decide) level

theorem lexes_array (level : Nat) (items : List Tree) :
    Lexes (array level items) (arrayTokens items) := by
  match items with
  | [] => exact lexes_nil
  | [t] => exact (lexes_newLine level).append (lexes_value level t)
  | t :: next :: items =>
    have first := (lexes_newLine level).append (lexes_value level t)
    exact first.append ((lexes_mark (by decide)).append (lexes_array level (next :: items)))

theorem lexes_map (level : Nat) (entries : List (String × Tree)) :
    Lexes (map level entries) (mapTokens entries) := by
  match entries with
  | [] => exact lexes_nil
  | [(k, t)] => exact lexes_entry level k (lexes_value level t)
  | (k, t) :: next :: entries =>
    have others := (lexes_mark (c := ',') (by decide)).append (lexes_map level (next :: entries))
    have whole := lexes_entry level k ((lexes_value level t).append others)
    simp only [map, mapTokens, List.append_assoc, List.cons_append] at whole ⊢
    exact whole

end

end BuildScript.Json
