import BuildScript.Proofs.Skipped.Code

/-!
# Balanced brackets in code

A test in parentheses, a body in braces and a statement without braces around it, as texts whose
brackets are balanced in their code.  Skipping ends just behind each of them.
-/

namespace BuildScript

open Text

/-! ## Nesting -/

/-- How many brackets are open behind the code, if none is closed that was not open. -/
def nestingAfter? (opens closes : Char → Bool) : Nat → List Char → Option Nat
  | depth, [] => some depth
  | depth, c :: s =>
    if opens c then nestingAfter? opens closes (depth + 1) s
    else if closes c then
      match depth with
      | 0 => none
      | depth + 1 => nestingAfter? opens closes depth s
    else nestingAfter? opens closes depth s

/-- Every line break of the code stands inside brackets. -/
def breaksInside (opens closes : Char → Bool) : Nat → List Char → Bool
  | _, [] => true
  | depth, c :: s =>
    if opens c then breaksInside opens closes (depth + 1) s
    else if closes c then breaksInside opens closes (depth - 1) s
    else (depth != 0 || !isLineBreak c) && breaksInside opens closes depth s

/-- The brackets whose nesting skipping counts. -/
inductive Pair where
  | parentheses
  | braces

namespace Pair

def opening : Pair → Char
  | parentheses => '('
  | braces => '{'

def closing : Pair → Char
  | parentheses => ')'
  | braces => '}'

/-- Skip to behind the bracket that closes the pair, inside which so many more are open. -/
def skip (pair : Pair) (depth : Nat) (place : Option Char × List Char) : List Char :=
  skipBalanced pair.opening pair.closing (depth + 1) place.1 place.2

variable {pair : Pair}

theorem skip_of_code {depth : Nat} {quote : Option Char} {c : Char} {s : List Char}
    (h : literalStep? quote c s = none) :
    pair.skip depth (quote, c :: s) =
      if c == pair.opening then pair.skip (depth + 1) (none, s)
      else if c == pair.closing then if depth = 0 then s else pair.skip (depth - 1) (none, s)
      else pair.skip depth (none, afterCode c s) := by
  rw [skip, skipBalanced_of_code h]
  split
  · rfl
  · split
    · cases depth with
      | zero => rfl
      | succ depth => rfl
    · rfl

theorem skip_passesOver (pair : Pair) (depth : Nat) : PassesOver (pair.skip depth) where
  literal h := skipBalanced_of_literal h
  slash r := by
    rw [skip_of_code rfl]
    cases pair <;> rfl

theorem not_lineBreak {c : Char} (h : c = pair.opening ∨ c = pair.closing) :
    isLineBreak c = false := by
  cases pair <;> rcases h with rfl | rfl <;> rfl

/-- Skipping stands where the lexer stands, inside the brackets that are open there. -/
theorem skip_after (pair : Pair) {s : List Char} {l : Lexer} {depth depth' : Nat}
    (h : nestingAfter? (· == pair.opening) (· == pair.closing) depth (l.codeOf s) = some depth')
    (rest : List Char) :
    pair.skip depth (l.resume (s ++ rest)) = pair.skip depth' ((l.after s).resume rest) := by
  induction s generalizing l depth with
  | nil =>
    cases h
    rfl
  | cons c s ih =>
    rw [List.cons_append]
    cases counted : l.counts c with
    | false =>
      rw [Lexer.scan_next (pair.skip_passesOver depth) counted]
      exact ih (by simpa [Lexer.codeOf, counted] using h)
    | true =>
      obtain ⟨⟨quote, code, here⟩, onward⟩ :=
        Lexer.scan_counts (pair.skip_passesOver depth) counted (s ++ rest)
      rw [here, skip_of_code code]
      simp only [Lexer.codeOf, counted, if_true, nestingAfter?] at h
      split at h
      · next opens =>
        rw [if_pos opens]
        have inLine := not_lineBreak (.inl (beq_iff_eq.1 opens))
        have := ih h
        rwa [onward, afterCode, inLine] at this
      · next other =>
        rw [if_neg other]
        split at h
        · next closes =>
          rw [if_pos closes]
          split at h
          · cases h
          · have inLine := not_lineBreak (.inr (beq_iff_eq.1 closes))
            have := ih h
            rwa [onward, afterCode, inLine] at this
        · next inner =>
          rw [if_neg inner]
          have := ih h
          rwa [onward] at this

/-- The bracket that closes the pair, behind code, is the end. -/
theorem skip_closing (pair : Pair) {l : Lexer} (idle : l.isIdle = true) (rest : List Char) :
    pair.skip 0 (l.resume (pair.closing :: rest)) = rest := by
  have counted : l.counts pair.closing = true := by
    cases l <;> cases pair <;> first | rfl | cases idle
  obtain ⟨⟨quote, code, here⟩, -⟩ :=
    Lexer.scan_counts (pair.skip_passesOver 0) counted rest
  rw [here, skip_of_code code]
  cases pair <;> rfl

/-! ## Text in brackets -/

/-- A text between the brackets of the pair. -/
structure Inner (pair : Pair) where
  chars : List Char
  balanced :
    nestingAfter? (· == pair.opening) (· == pair.closing) 0 (Lexer.code.codeOf chars) = some 0
  closed : (Lexer.code.after chars).isIdle = true

/-- The text with its brackets. -/
def Inner.text (inner : pair.Inner) : List Char :=
  pair.opening :: (inner.chars ++ [pair.closing])

theorem skipBalanced_text (inner : pair.Inner) (rest : List Char) :
    skipBalanced pair.opening pair.closing 0 none (inner.text ++ rest) = rest := by
  have code : literalStep? none pair.opening (inner.chars ++ pair.closing :: rest) = none := by
    cases pair <;> rfl
  have first : skipBalanced pair.opening pair.closing 0 none (inner.text ++ rest) =
      pair.skip 0 (Lexer.code.resume (inner.chars ++ pair.closing :: rest)) := by
    rw [Inner.text, List.cons_append, List.append_assoc, List.singleton_append,
      skipBalanced_of_code code]
    simp [skip, Lexer.resume]
  rw [first, pair.skip_after inner.balanced, pair.skip_closing inner.closed]

end Pair

/-- The test of a conditional, or the arguments of a call. -/
abbrev Test := Pair.Inner .parentheses

/-- The body of a branch or of a method. -/
abbrev Body := Pair.Inner .braces

/-- The text of the test, with blanks before it, is what a call skips. -/
theorem skipCall_text {blanks : List Char} (h : ∀ c ∈ blanks, isIndent c = true) (test : Test)
    (rest : List Char) : skipCall (blanks ++ (test.text ++ rest)) = rest := by
  have start : skipIndent (blanks ++ (test.text ++ rest)) = test.text ++ rest := by
    rw [skipIndent, List.dropWhile_append_of_pos h]
    rfl
  have whole : test.text ++ rest = '(' :: (test.chars ++ [')'] ++ rest) := rfl
  rw [skipCall, start, whole]
  exact Pair.skipBalanced_text test rest

/-! ## Statements -/

/-- Parentheses and braces count together in a statement. -/
def opensAny (c : Char) : Bool := c == '{' || c == '('

def closesAny (c : Char) : Bool := c == '}' || c == ')'

/-- Skip a statement in which so many brackets are open. -/
def skipOn (depth : Nat) (place : Option Char × List Char) : List Char :=
  skipStatement depth place.1 place.2

theorem skipOn_of_code {depth : Nat} {quote : Option Char} {c : Char} {s : List Char}
    (h : literalStep? quote c s = none) :
    skipOn depth (quote, c :: s) =
      if depth == 0 && (isLineBreak c || c == '}') then c :: s
      else if opensAny c then skipOn (depth + 1) (none, s)
      else if closesAny c then skipOn (depth - 1) (none, s)
      else skipOn depth (none, afterCode c s) :=
  skipStatement_of_code h

theorem skipOn_passesOver (depth : Nat) : PassesOver (skipOn depth) where
  literal h := skipStatement_of_literal h
  slash r := by
    rw [skipOn_of_code rfl]
    cases depth <;> rfl

theorem not_lineBreak_of_bracket {c : Char} (h : opensAny c = true ∨ closesAny c = true) :
    isLineBreak c = false := by
  have : (c = '{' ∨ c = '(') ∨ c = '}' ∨ c = ')' := by
    simpa [opensAny, closesAny] using h
  rcases this with (rfl | rfl) | rfl | rfl <;> rfl

/-- As long as every line break stands inside brackets, skipping a statement stands where the lexer
stands. -/
theorem skipOn_after {s : List Char} {l : Lexer} {depth depth' : Nat}
    (h : nestingAfter? opensAny closesAny depth (l.codeOf s) = some depth')
    (inside : breaksInside opensAny closesAny depth (l.codeOf s) = true) (rest : List Char) :
    skipOn depth (l.resume (s ++ rest)) = skipOn depth' ((l.after s).resume rest) := by
  induction s generalizing l depth with
  | nil =>
    cases h
    rfl
  | cons c s ih =>
    rw [List.cons_append]
    cases counted : l.counts c with
    | false =>
      simp only [Lexer.codeOf, counted, Bool.false_eq_true, if_false] at h inside
      rw [Lexer.scan_next (skipOn_passesOver depth) counted]
      exact ih h inside
    | true =>
      obtain ⟨⟨quote, code, here⟩, onward⟩ :=
        Lexer.scan_counts (skipOn_passesOver depth) counted (s ++ rest)
      rw [here, skipOn_of_code code]
      simp only [Lexer.codeOf, counted, if_true, nestingAfter?, breaksInside] at h inside
      split at h
      · next opens =>
        have inLine := not_lineBreak_of_bracket (.inl opens)
        have notClosing : c ≠ '}' := by rintro rfl; cases opens
        rw [if_pos opens] at inside
        rw [if_neg (by simp [inLine, notClosing]), if_pos opens]
        have := ih h inside
        rwa [onward, afterCode, inLine] at this
      · next other =>
        rw [if_neg other] at inside
        split at h
        · next closes =>
          have inLine := not_lineBreak_of_bracket (.inr closes)
          rw [if_pos closes] at inside
          split at h
          · cases h
          · rw [if_neg (by simp), if_neg other, if_pos closes]
            have := ih h inside
            rwa [onward, afterCode, inLine] at this
        · next inner =>
          rw [if_neg inner] at inside
          obtain ⟨lineBreak, inside⟩ := Bool.and_eq_true_iff.1 inside
          have goesOn : ¬ (depth == 0 && (isLineBreak c || c == '}')) = true := by
            have notClosing : c ≠ '}' := by rintro rfl; exact inner rfl
            simp only [Bool.or_eq_true, bne_iff_ne, Bool.not_eq_true'] at lineBreak
            rcases lineBreak with open_ | inLine
            · simp [open_]
            · simp [inLine, notClosing]
          rw [if_neg goesOn, if_neg other, if_neg inner]
          have := ih h inside
          rwa [onward] at this

/-- The text is at its end, or at a character at which every line ends. -/
def AtLineEnd (s : List Char) : Prop := ∀ c ∈ s.head?, isLineBreak c = true ∨ c = '}'

theorem AtLineEnd.cases_head {c : Char} {r : List Char} (h : AtLineEnd (c :: r)) :
    (c = '\n' ∨ c = '\r') ∨ c = '}' :=
  (h c rfl).imp_left eq_of_isLineBreak

theorem AtLineEnd.margin {s : List Char} (h : AtLineEnd s) : margin s = s := by
  cases s with
  | nil => rfl
  | cons c r =>
    rcases h.cases_head with (rfl | rfl) | rfl <;> exact margin_cons_of_not rfl (by decide) r

/-- Outside brackets a statement ends where the line does. -/
theorem skipOn_end {l : Lexer} (idle : l.isIdle = true) {rest : List Char} (h : AtLineEnd rest) :
    skipOn 0 (l.resume rest) = rest := by
  have stops : skipOn 0 (none, rest) = rest := by
    cases rest with
    | nil => rw [skipOn, skipStatement]
    | cons c r =>
      have code : literalStep? none c r = none := by
        rcases h.cases_head with (rfl | rfl) | rfl <;> rfl
      rw [skipOn_of_code code, if_pos (by simpa using h c rfl)]
  cases l with
  | code => exact stops
  | lineStart =>
    show skipOn 0 (none, margin rest) = rest
    rw [h.margin, stops]
  | slash =>
    have noComment : ∀ c ∈ rest.head?, c ≠ '/' ∧ c ≠ '*' := by
      rintro c hc
      rcases h c hc with lineBreak | rfl
      · constructor <;> rintro rfl <;> cases lineBreak
      · decide
    show skipOn 0 (none, margin ('/' :: rest)) = rest
    rw [margin_slash noComment, (skipOn_passesOver 0).slash, stops]
  | literal q => cases idle
  | escape q => cases idle
  | lineComment => cases idle
  | blockComment => cases idle
  | star => cases idle

/-- A statement without braces around it, which ends with its line. -/
structure Statement where
  chars : List Char
  nonempty : chars ≠ []
  start : ∀ c ∈ chars.head?, isSpace c = false ∧ c ≠ '{'
  notLineComment : ¬ ['/', '/'] <+: chars
  notBlockComment : ¬ ['/', '*'] <+: chars
  balanced : nestingAfter? opensAny closesAny 0 (Lexer.code.codeOf chars) = some 0
  breaks : breaksInside opensAny closesAny 0 (Lexer.code.codeOf chars) = true
  closed : (Lexer.code.after chars).isIdle = true

theorem skipStatement_text (statement : Statement) {rest : List Char} (h : AtLineEnd rest) :
    skipStatement 0 none (statement.chars ++ rest) = rest := by
  have run := skipOn_after statement.balanced statement.breaks rest
  rw [skipOn_end statement.closed h] at run
  exact run

end BuildScript
