import BuildScript.Format.Toml
import BuildScript.Comment
import BuildScript.Proofs.Escapes

/-!
# Strings of TOML

The four forms of strings in TOML 1.0, each with a reader from behind its opening quotes, and that
every text comes back from the form in which it is written.
-/

namespace BuildScript.Toml

open Escape

/-! ## Escapes -/

/-- The character that stands behind a backslash, and the text behind it. -/
def escaped? : List Char → Option (Char × List Char)
  | 'b' :: r => some ('\x08', r)
  | 't' :: r => some ('\t', r)
  | 'n' :: r => some ('\n', r)
  | 'f' :: r => some ('\x0C', r)
  | 'r' :: r => some ('\r', r)
  | '"' :: r => some ('"', r)
  | '\\' :: r => some ('\\', r)
  | 'u' :: r => scalar? 4 r
  | 'U' :: r => scalar? 8 r
  | _ => none

theorem escaped?_length {s rest : List Char} {c : Char} (h : escaped? s = some (c, rest)) :
    rest.length < s.length := by
  unfold escaped? at h
  split at h
  all_goals first
    | (cases h; exact Nat.lt_succ_self _)
    | exact Nat.lt_succ_of_le (scalar?_length h)
    | cases h

/-! ## Readers -/

/-- A character that a string shows as it is. -/
def isStringChar (c : Char) : Bool := c == '\t' || ' ' ≤ c && c != '\x7F'

/-- The text of a string on one line, from behind its quote, and what follows it. -/
def lineString? (escapes : Bool) (quote : Char) : List Char → Option (List Char × List Char)
  | [] => none
  | c :: r =>
    if c = quote then some ([], r)
    else if escapes && c == '\\' then
      match h : escaped? r with
      | some (d, rest) =>
        have := escaped?_length h
        prepend [d] (lineString? escapes quote rest)
      | none => none
    else if isStringChar c then prepend [c] (lineString? escapes quote r)
    else none
  termination_by s => s.length

/-- The text behind blanks and line breaks. -/
def skipGap : List Char → List Char
  | '\r' :: '\n' :: r => skipGap r
  | c :: r => if isIndent c || c == '\n' then skipGap r else c :: r
  | [] => []

theorem skipGap_length (s : List Char) : (skipGap s).length ≤ s.length := by
  fun_induction skipGap s with
  | case1 r ih => exact Nat.le_succ_of_le (Nat.le_succ_of_le ih)
  | case2 c r _ _ ih => exact Nat.le_succ_of_le ih
  | case3 => exact Nat.le_refl _
  | case4 => exact Nat.le_refl _

/-- The text behind a line break that a backslash hides, with the blanks around it. -/
def afterHiddenBreak? (s : List Char) : Option (List Char) :=
  match skipIndent s with
  | '\n' :: r => some (skipGap r)
  | '\r' :: '\n' :: r => some (skipGap r)
  | _ => none

theorem afterHiddenBreak?_length {s rest : List Char} (h : afterHiddenBreak? s = some rest) :
    rest.length ≤ s.length := by
  have indent := (skipIndent_suffix s).length_le
  unfold afterHiddenBreak? at h
  split at h
  · next r same =>
    cases h
    rw [same, List.length_cons] at indent
    exact Nat.le_trans (skipGap_length r) (Nat.le_of_succ_le indent)
  · next r same =>
    cases h
    rw [same, List.length_cons, List.length_cons] at indent
    exact Nat.le_trans (skipGap_length r) (Nat.le_of_succ_le (Nat.le_of_succ_le indent))
  · cases h

/-- The text of a string of lines, from inside it, and what follows it.  So many quotes stand right
before; three of them end the string, and two more may stand before these. -/
def linesString? (escapes : Bool) (quote : Char) (quotes : Nat) :
    List Char → Option (List Char × List Char)
  | [] => if 3 ≤ quotes then some (List.replicate (quotes - 3) quote, []) else none
  | c :: r =>
    if c = quote then if quotes < 5 then linesString? escapes quote (quotes + 1) r else none
    else if 3 ≤ quotes then some (List.replicate (quotes - 3) quote, c :: r)
    else if escapes && c == '\\' then
      match h : escaped? r with
      | some (d, rest) =>
        have := escaped?_length h
        prepend (List.replicate quotes quote ++ [d]) (linesString? escapes quote 0 rest)
      | none =>
        match h' : afterHiddenBreak? r with
        | some rest =>
          have := afterHiddenBreak?_length h'
          prepend (List.replicate quotes quote) (linesString? escapes quote 0 rest)
        | none => none
    else if c == '\r' && r.head? == some '\n' then
      have := (List.tail_suffix r).length_le
      prepend (List.replicate quotes quote ++ ['\n']) (linesString? escapes quote 0 r.tail)
    else if isStringChar c || c == '\n' then
      prepend (List.replicate quotes quote ++ [c]) (linesString? escapes quote 0 r)
    else none
  termination_by s => s.length

/-- The text without the line break that begins it. -/
def dropLineBreak : List Char → List Char
  | '\n' :: r => r
  | '\r' :: '\n' :: r => r
  | s => s

/-- A string from behind its first quote: its text, whether it is a string of lines, and what
follows it.  Double quotes allow escapes. -/
def string? (quote : Char) (s : List Char) : Option ((List Char × Bool) × List Char) :=
  match s with
  | c :: d :: r =>
    if c = quote && d = quote then
      (linesString? (quote == '"') quote 0 (dropLineBreak r)).map fun found =>
        ((found.1, true), found.2)
    else (lineString? (quote == '"') quote s).map fun found => ((found.1, false), found.2)
  | s => (lineString? (quote == '"') quote s).map fun found => ((found.1, false), found.2)

/-! ## Escapes come back -/

/-- A character of a string with escapes either stands for itself or is read behind a backslash. -/
theorem escape_cases (c : Char) :
    (escape c = [c] ∧ isStringChar c = true ∧ c ≠ '"' ∧ c ≠ '\\') ∨
      ∃ e, escape c = '\\' :: e ∧ ∀ rest, escaped? (e ++ rest) = some (c, rest) := by
  unfold escape
  split
  all_goals try exact .inr ⟨_, rfl, fun rest => rfl⟩
  next quote backslash =>
    split
    · next control =>
      have small : c.toNat < 16 ^ 4 := by
        rcases (by simpa using control : c < ' ' ∨ c = '\x7F') with before | rfl
        · have : c.toNat < 32 := before
          omega
        · decide
      exact .inr ⟨_, rfl, fun rest => scalar?_padded (.inl rfl) small rest⟩
    · next shown =>
      have parts : ' ' ≤ c ∧ c ≠ '\x7F' := by simpa using shown
      exact .inl ⟨rfl, by simp [isStringChar, parts], quote, backslash⟩

/-! ## Strings on one line come back -/

theorem lineString?_quote (escapes : Bool) (quote : Char) (r : List Char) :
    lineString? escapes quote (quote :: r) = some ([], r) := by
  rw [lineString?, if_pos rfl]

theorem lineString?_char {escapes : Bool} {quote c : Char} (shown : isStringChar c = true)
    (other : c ≠ quote) (plain : escapes = true → c ≠ '\\') (r : List Char) :
    lineString? escapes quote (c :: r) = prepend [c] (lineString? escapes quote r) := by
  have noEscape : ¬ (escapes && c == '\\') = true := by simpa using plain
  rw [lineString?, if_neg other, if_neg noEscape, if_pos shown]

theorem lineString?_escape {quote d : Char} {r rest : List Char} (other : quote ≠ '\\')
    (found : escaped? r = some (d, rest)) :
    lineString? true quote ('\\' :: r) = prepend [d] (lineString? true quote rest) := by
  rw [lineString?, if_neg (Ne.symm other), if_pos (by decide)]
  split
  · next same => rw [found] at same; cases same; rfl
  · next none => rw [found] at none; cases none

theorem lineString?_escaped (s rest : List Char) :
    lineString? true '"' (s.flatMap escape ++ '"' :: rest) = some (s, rest) := by
  induction s with
  | nil => exact lineString?_quote true '"' rest
  | cons c s ih =>
    rw [List.flatMap_cons, List.append_assoc]
    rcases escape_cases c with ⟨same, shown, quote, backslash⟩ | ⟨e, same, found⟩
    · rw [same, List.singleton_append, lineString?_char shown quote fun _ => backslash, ih]
      rfl
    · rw [same, List.cons_append, lineString?_escape (by decide) (found _), ih]
      rfl

theorem lineString?_literal {s : List Char}
    (h : ∀ c ∈ s, isStringChar c = true ∧ c ≠ '\'') (rest : List Char) :
    lineString? false '\'' (s ++ '\'' :: rest) = some (s, rest) := by
  induction s with
  | nil => exact lineString?_quote false '\'' rest
  | cons c s ih =>
    obtain ⟨shown, other⟩ := h c (by simp)
    rw [List.cons_append, lineString?_char shown other (fun escapes => by cases escapes),
      ih fun d hd => h d (by simp [hd])]
    rfl

/-! ## Strings of lines come back -/

theorem linesString?_quote {escapes : Bool} {quote : Char} {quotes : Nat} (few : quotes < 5)
    (r : List Char) : linesString? escapes quote quotes (quote :: r) =
      linesString? escapes quote (quotes + 1) r := by
  rw [linesString?, if_pos rfl, if_pos few]

/-- Three quotes end the string where no more follow. -/
theorem linesString?_end {escapes : Bool} {quote : Char} {quotes : Nat} (few : quotes ≤ 2)
    {rest : List Char} (stop : ∀ c ∈ rest.head?, c ≠ quote) :
    linesString? escapes quote quotes (quote :: quote :: quote :: rest) =
      some (List.replicate quotes quote, rest) := by
  rw [linesString?_quote (by omega), linesString?_quote (by omega), linesString?_quote (by omega)]
  cases rest with
  | nil => simp [linesString?]
  | cons c rest => rw [linesString?, if_neg (stop c rfl), if_pos (by omega)]; rfl

theorem linesString?_char {escapes : Bool} {quote c : Char} {quotes : Nat} (few : quotes ≤ 2)
    (shown : isStringChar c = true ∨ c = '\n') (other : c ≠ quote)
    (plain : escapes = true → c ≠ '\\') (r : List Char) :
    linesString? escapes quote quotes (c :: r) =
      prepend (List.replicate quotes quote ++ [c]) (linesString? escapes quote 0 r) := by
  have noEscape : ¬ (escapes && c == '\\') = true := by simpa using plain
  have noReturn : c ≠ '\r' := by
    rintro rfl
    rcases shown with shown | same
    · cases shown
    · cases same
  rw [linesString?, if_neg other, if_neg (by omega), if_neg noEscape,
    if_neg (by simp [noReturn]), if_pos (by simpa using shown)]

theorem linesString?_escape {quote d : Char} {quotes : Nat} {r rest : List Char}
    (few : quotes ≤ 2) (other : quote ≠ '\\') (found : escaped? r = some (d, rest)) :
    linesString? true quote quotes ('\\' :: r) =
      prepend (List.replicate quotes quote ++ [d]) (linesString? true quote 0 rest) := by
  rw [linesString?, if_neg (Ne.symm other), if_neg (by omega), if_pos (by decide)]
  split
  · next same => rw [found] at same; cases same; rfl
  · next none => rw [found] at none; cases none

theorem replicate_append_cons (n : Nat) (c : Char) (s : List Char) :
    List.replicate n c ++ c :: s = List.replicate (n + 1) c ++ s := by
  rw [← List.singleton_append, ← List.append_assoc, ← List.replicate_succ']

/-- The quotes that stand before the text come back with it. -/
theorem linesString?_escapeLines (s : List Char) {quotes : Nat} (few : quotes ≤ 2)
    {rest : List Char} (stop : ∀ c ∈ rest.head?, c ≠ '"') :
    linesString? true '"' quotes (escapeLines quotes s ++ '"' :: '"' :: '"' :: rest) =
      some (List.replicate quotes '"' ++ s, rest) := by
  induction s generalizing quotes with
  | nil =>
    rw [List.append_nil]
    exact linesString?_end few stop
  | cons c s ih =>
    have fresh := ih (Nat.zero_le 2)
    rw [escapeLines]
    by_cases quote : c = '"'
    · subst quote
      by_cases third : quotes = 2
      · subst third
        have found : ∀ t, escaped? ('"' :: t) = some ('"', t) := fun t => rfl
        simp only [beq_self_eq_true, if_true, List.cons_append]
        rw [linesString?_escape few (by decide) (found _), fresh]
        rfl
      · have fewer : quotes + 1 ≤ 2 := by omega
        simp only [beq_self_eq_true, if_true, beq_iff_eq, third, if_false, List.cons_append]
        rw [linesString?_quote (by omega), ih fewer, replicate_append_cons]
    · rw [if_neg (by simpa using quote)]
      by_cases lineBreak : c = '\n'
      · subst lineBreak
        simp only [beq_self_eq_true, if_true, List.cons_append]
        rw [linesString?_char few (.inr rfl) (by decide) (fun _ => by decide), fresh]
        simp [prepend]
      · rw [if_neg (by simpa using lineBreak), List.append_assoc]
        rcases escape_cases c with ⟨same, shown, -, backslash⟩ | ⟨e, same, found⟩
        · rw [same, List.singleton_append,
            linesString?_char few (.inl shown) quote (fun _ => backslash), fresh]
          simp [prepend]
        · rw [same, List.cons_append, linesString?_escape few (by decide) (found _), fresh]
          simp [prepend]

theorem le_longestRun_go (c : Char) (run : Nat) (s : List Char) : run ≤ longestRun.go c run s := by
  induction s generalizing run with
  | nil => exact Nat.le_refl run
  | cons d s ih =>
    rw [longestRun.go]
    split
    · exact Nat.le_trans (Nat.le_succ run) (ih (run + 1))
    · exact Nat.le_max_left _ _

/-- A text without three quotes in a row comes back as it is. -/
theorem linesString?_literal {s : List Char} {quotes : Nat}
    (runs : longestRun.go '\'' quotes s ≤ 2)
    (h : ∀ c ∈ s, isStringChar c = true ∨ c = '\n') {rest : List Char}
    (stop : ∀ c ∈ rest.head?, c ≠ '\'') :
    linesString? false '\'' quotes (s ++ '\'' :: '\'' :: '\'' :: rest) =
      some (List.replicate quotes '\'' ++ s, rest) := by
  induction s generalizing quotes with
  | nil =>
    rw [List.append_nil]
    exact linesString?_end runs stop
  | cons c s ih =>
    have others : ∀ d ∈ s, isStringChar d = true ∨ d = '\n' := fun d hd => h d (by simp [hd])
    rw [longestRun.go] at runs
    by_cases quote : c = '\''
    · subst quote
      simp only [beq_self_eq_true, if_true] at runs
      have few : quotes < 5 := by
        have := le_longestRun_go '\'' (quotes + 1) s
        omega
      rw [List.cons_append, linesString?_quote few, ih runs others, replicate_append_cons]
    · rw [if_neg (by simpa using quote)] at runs
      have few : quotes ≤ 2 := Nat.le_trans (Nat.le_max_left _ _) runs
      have later : longestRun.go '\'' 0 s ≤ 2 := Nat.le_trans (Nat.le_max_right _ _) runs
      rw [List.cons_append, linesString?_char few (h c (by simp)) quote
        (fun escapes => by cases escapes), ih later others]
      simp [prepend]

/-! ## Styles -/

namespace Style

def quote : Style → Char
  | basic => '"'
  | literal => '\''
  | basicLines => '"'
  | literalLines => '\''

def isLines : Style → Bool
  | basic => false
  | literal => false
  | basicLines => true
  | literalLines => true

/-- The style can show the text.  Escapes show every text. -/
def Fits (s : List Char) : Style → Prop
  | basic => True
  | literal => ∀ c ∈ s, isStringChar c = true ∧ c ≠ '\''
  | basicLines => True
  | literalLines => (∀ c ∈ s, isStringChar c = true ∨ c = '\n') ∧ longestRun '\'' s ≤ 2

end Style

theorem isStringChar_of_not_isControl {c : Char} (h : isControl c = false) :
    isStringChar c = true ∨ c = '\n' := by
  by_cases lineBreak : c = '\n'
  · exact .inr lineBreak
  by_cases tab : c = '\t'
  · exact .inl (by simp [isStringChar, tab])
  have parts : ' ' ≤ c ∧ c ≠ '\x7F' := by simpa [isControl, tab, lineBreak] using h
  exact .inl (by simp [isStringChar, parts])

/-- The chosen style can show the text. -/
theorem style_fits (s : List Char) : (style s).Fits s := by
  have shown : ¬ s.any isControl = true → ∀ c ∈ s, isStringChar c = true ∨ c = '\n' := by
    intro none c member
    refine isStringChar_of_not_isControl ?_
    simpa using fun control => none (List.any_eq_true.2 ⟨c, member, control⟩)
  unfold style
  split
  · split <;> trivial
  next plain =>
  split
  · trivial
  split
  · next free =>
    intro c member
    obtain ⟨quote, lineBreak⟩ : '\'' ∉ s ∧ '\n' ∉ s := by simpa using free
    have inLine : c ≠ '\n' := by rintro rfl; exact lineBreak member
    exact ⟨(shown plain c member).resolve_right inLine, by rintro rfl; exact quote member⟩
  split
  · trivial
  split
  · next runs => exact ⟨shown plain, runs⟩
  split <;> trivial

/-- The first character of a text on one line with escapes. -/
theorem head?_escape (c : Char) (t : List Char) :
    ∀ d ∈ (escape c ++ t).head?, d = c ∧ isStringChar c = true ∧ c ≠ '"' ∨ d = '\\' := by
  intro d hd
  rcases escape_cases c with ⟨same, shown, quote, -⟩ | ⟨e, same, -⟩
  · rw [same] at hd
    cases hd
    exact .inl ⟨rfl, shown, quote⟩
  · rw [same] at hd
    cases hd
    exact .inr rfl

theorem dropLineBreak_of_head? {s : List Char} (h : ∀ c ∈ s.head?, c ≠ '\n' ∧ c ≠ '\r') :
    dropLineBreak s = s := by
  unfold dropLineBreak
  split
  · exact absurd rfl (h '\n' rfl).1
  · exact absurd rfl (h '\r' rfl).2
  · rfl

/-- The line break behind the opening quotes is no part of the text. -/
theorem dropLineBreak_opening {s t : List Char}
    (h : '\n' ∉ s → ∀ c ∈ t.head?, c ≠ '\n' ∧ c ≠ '\r') :
    dropLineBreak (opening s ++ t) = t := by
  unfold opening
  split
  · rfl
  · next inLine => exact dropLineBreak_of_head? (h (by simpa using inLine))

theorem not_lineBreak_of_isStringChar {c : Char} (h : isStringChar c = true) :
    c ≠ '\n' ∧ c ≠ '\r' := by
  constructor <;> rintro rfl <;> cases h

theorem string?_of_line {quote : Char} {s text rest : List Char}
    (line : ¬ [quote, quote] <+: s)
    (h : lineString? (quote == '"') quote s = some (text, rest)) :
    string? quote s = some ((text, false), rest) := by
  unfold string?
  split
  · next c d r =>
    have apart : ¬ (c = quote && d = quote) = true := by
      simp only [Bool.and_eq_true, decide_eq_true_eq]
      rintro ⟨rfl, rfl⟩
      exact line ⟨r, rfl⟩
    rw [if_neg apart, h]
    rfl
  · rw [h]
    rfl

theorem string?_of_lines {quote : Char} {s text rest : List Char}
    (h : linesString? (quote == '"') quote 0 (dropLineBreak s) = some (text, rest)) :
    string? quote (quote :: quote :: s) = some ((text, true), rest) := by
  simp only [string?, decide_true, Bool.and_self, if_true, h]
  rfl

/-- A text comes back from a style that can show it. -/
theorem string?_quotedIn {style : Style} {s : List Char} (fits : style.Fits s) {rest : List Char}
    (stop : ∀ c ∈ rest.head?, c ≠ style.quote) :
    ∃ body, quotedIn style s ++ rest = style.quote :: body ∧
      string? style.quote body = some ((s, style.isLines), rest) := by
  cases style with
  | basic =>
    refine ⟨s.flatMap escape ++ '"' :: rest, by simp [quotedIn, Style.quote], ?_⟩
    refine string?_of_line ?_ (lineString?_escaped s rest)
    rintro ⟨tail, same⟩
    cases s with
    | nil =>
      have : rest = '"' :: tail := (List.cons.inj same).2.symm
      exact stop '"' (by simp [this]) rfl
    | cons c s =>
      rw [List.flatMap_cons, List.append_assoc] at same
      rcases head?_escape c (s.flatMap escape ++ '"' :: rest) '"' (by rw [← same]; rfl) with
        ⟨rfl, -, other⟩ | backslash
      · exact other rfl
      · cases backslash
  | literal =>
    refine ⟨s ++ '\'' :: rest, by simp [quotedIn, Style.quote], ?_⟩
    refine string?_of_line ?_ (lineString?_literal fits rest)
    rintro ⟨tail, same⟩
    cases s with
    | nil =>
      have : rest = '\'' :: tail := (List.cons.inj same).2.symm
      exact stop '\'' (by simp [this]) rfl
    | cons c s => exact (fits c (by simp)).2 (List.cons.inj same).1.symm
  | basicLines =>
    refine ⟨'"' :: '"' :: (opening s ++ (escapeLines 0 s ++ '"' :: '"' :: '"' :: rest)),
      by simp [quotedIn, Style.quote], ?_⟩
    refine string?_of_lines ?_
    rw [dropLineBreak_opening]
    · exact linesString?_escapeLines s (Nat.zero_le 2) stop
    · intro inLine c hc
      cases s with
      | nil => cases hc; decide
      | cons d s =>
        have other : d ≠ '\n' := by rintro rfl; exact inLine (by simp)
        rw [escapeLines] at hc
        by_cases quote : d = '"'
        · subst quote
          cases hc
          decide
        · rw [if_neg (by simpa using quote), if_neg (by simpa using other), List.append_assoc] at hc
          rcases head?_escape d _ c hc with ⟨rfl, shown, -⟩ | rfl
          · exact not_lineBreak_of_isStringChar shown
          · decide
  | literalLines =>
    obtain ⟨shown, runs⟩ := fits
    refine ⟨'\'' :: '\'' :: (opening s ++ (s ++ '\'' :: '\'' :: '\'' :: rest)),
      by simp [quotedIn, Style.quote], ?_⟩
    refine string?_of_lines ?_
    rw [dropLineBreak_opening]
    · exact linesString?_literal runs shown stop
    · intro inLine c hc
      cases s with
      | nil => cases hc; decide
      | cons d s =>
        cases hc
        refine not_lineBreak_of_isStringChar ((shown c (by simp)).resolve_right ?_)
        rintro rfl
        exact inLine (by simp)

end BuildScript.Toml
