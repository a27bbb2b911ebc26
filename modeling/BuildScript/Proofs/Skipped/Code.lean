import BuildScript.Proofs.Locality.Skip

/-!
# Code in skipped text

A lexer tells, character by character, what is code in a text and what belongs to a literal or a
comment.  Brackets are balanced if they are balanced in the code.  The skipping functions follow the
lexer: behind a text whose brackets they have counted they stand where the lexer stands.
-/

namespace BuildScript

open Text

/-! ## The lexer -/

/-- What the lexer is in. -/
inductive Lexer where
  /-- Behind code of a line. -/
  | code
  /-- At the start of a line, behind blanks and comments only. -/
  | lineStart
  /-- Behind a slash that begins a line and may open a comment. -/
  | slash
  | literal (quote : Char)
  /-- Behind a backslash in a literal. -/
  | escape (quote : Char)
  | lineComment
  | blockComment
  /-- Behind a star that may close a block comment. -/
  | star
  deriving DecidableEq

namespace Lexer

/-- Behind a character of code, which may open a literal. -/
def behind (c : Char) : Lexer :=
  if isLineBreak c then lineStart else if isQuote c then literal c else code

def next : Lexer → Char → Lexer
  | code, c => behind c
  | lineStart, c => if isIndent c then lineStart else if c == '/' then slash else behind c
  | slash, c => if c == '/' then lineComment else if c == '*' then blockComment else behind c
  | literal q, c =>
    if isLineBreak c then lineStart
    else if c == '\\' then escape q
    else if c == q then code
    else literal q
  | escape q, _ => literal q
  | lineComment, c => if isLineBreak c then lineStart else lineComment
  | blockComment, c => if c == '*' then star else blockComment
  | star, c => if c == '/' then lineStart else if c == '*' then star else blockComment

/-- The character is code.  The indentation of a line, the slash that begins it and the quotes of a
literal do not count; a line break that ends a literal or a `//` comment does. -/
def counts : Lexer → Char → Bool
  | code, c => !isQuote c
  | lineStart, c => !(isIndent c || c == '/' || isQuote c)
  | slash, c => !(c == '/' || c == '*' || isQuote c)
  | literal _, c => isLineBreak c
  | lineComment, c => isLineBreak c
  | escape _, _ => false
  | blockComment, _ => false
  | star, _ => false

/-- What the lexer is in behind the text. -/
def after (l : Lexer) (s : List Char) : Lexer := s.foldl next l

/-- The code in the text. -/
def codeOf : Lexer → List Char → List Char
  | _, [] => []
  | l, c :: s => if l.counts c then c :: codeOf (l.next c) s else codeOf (l.next c) s

/-- Neither a literal nor a comment is open. -/
def isIdle : Lexer → Bool
  | code => true
  | lineStart => true
  | slash => true
  | _ => false

/-! ## Where skipping stands -/

/-- The open quote and the text at which skipping stands when the lexer has come to the text.  What
begins a line is passed over at once, with all of the comments that stand there. -/
def resume : Lexer → List Char → Option Char × List Char
  | code, s => (none, s)
  | lineStart, s => (none, margin s)
  | slash, s => (none, margin ('/' :: s))
  | literal q, s => (some q, s)
  | escape q, s => (some q, s.tail)
  | lineComment, s => (none, skipLine s)
  | blockComment, s => (none, BuildScript.blockComment s)
  | star, s => (none, BuildScript.blockComment ('*' :: s))

end Lexer

/-! ## Comments -/

theorem blockComment_cons_of_ne {c : Char} (h : c ≠ '*') (s : List Char) :
    blockComment (c :: s) = blockComment s :=
  blockComment.eq_2 c s fun _ star _ => h star

theorem blockComment_star_of_ne {c : Char} (h : c ≠ '/') (s : List Char) :
    blockComment ('*' :: c :: s) = blockComment (c :: s) :=
  blockComment.eq_2 '*' (c :: s) fun _ _ slash => h (List.cons.inj slash).1

/-- A slash that opens no comment is code. -/
theorem margin_slash {s : List Char} (h : ∀ c ∈ s.head?, c ≠ '/' ∧ c ≠ '*') :
    margin ('/' :: s) = '/' :: s := by
  rw [margin.eq_3 '/' s]
  · rfl
  · rintro r - rfl
    exact (h '/' rfl).1 rfl
  · rintro r - rfl
    exact (h '*' rfl).2 rfl

theorem isLineBreak_of_isQuote {c : Char} (h : isQuote c = true) : isLineBreak c = false := by
  rcases eq_of_isQuote h with rfl | rfl <;> decide

/-! ## Following the lexer -/

/-- The scan does not depend on how far it has read in a literal, and a slash means nothing to it. -/
structure PassesOver {α : Type} (scan : Option Char × List Char → α) : Prop where
  literal : ∀ {quote next : Option Char} {c : Char} {r rest : List Char},
    literalStep? quote c r = some (next, rest) → scan (quote, c :: r) = scan (next, rest)
  slash : ∀ r : List Char, scan (none, '/' :: r) = scan (none, r)

namespace Lexer

variable {α : Type} {scan : Option Char × List Char → α} {c : Char}

theorem behind_of_isQuote (h : isQuote c = true) : behind c = literal c := by
  simp [behind, isLineBreak_of_isQuote h, h]

/-- The text at which skipping stands behind code. -/
theorem resume_behind (h : isQuote c = false) (s : List Char) :
    (behind c).resume s = (none, afterCode c s) := by
  unfold behind afterCode
  split
  · rfl
  · rw [h]
    rfl

theorem scan_quote (scans : PassesOver scan) (h : isQuote c = true) (s : List Char) :
    scan (none, c :: s) = scan ((behind c).resume s) := by
  rw [behind_of_isQuote h]
  exact scans.literal (by simp [literalStep?, h])

/-- Nothing happens at a character that is no code. -/
theorem scan_next (scans : PassesOver scan) {l : Lexer} (h : l.counts c = false) (s : List Char) :
    scan (l.resume (c :: s)) = scan ((l.next c).resume s) := by
  cases l with
  | code => exact scan_quote scans (by simpa [counts] using h) s
  | lineStart =>
    by_cases indent : isIndent c = true
    · rw [show lineStart.next c = lineStart by simp [next, indent]]
      show scan (none, margin (c :: s)) = scan (none, margin s)
      rw [margin_cons_of_isIndent indent]
    by_cases slash : c = '/'
    · subst slash
      rfl
    have quoted : isQuote c = true := by simpa [counts, indent, slash] using h
    rw [show lineStart.next c = behind c by simp [next, indent, slash], ← scan_quote scans quoted]
    show scan (none, margin (c :: s)) = scan (none, c :: s)
    rw [margin_cons_of_not (by simpa using indent) slash]
  | slash =>
    by_cases slash : c = '/'
    · subst slash
      show scan (none, margin ('/' :: '/' :: s)) = scan (none, skipLine s)
      rw [margin.eq_1]
    by_cases star : c = '*'
    · subst star
      show scan (none, margin ('/' :: '*' :: s)) = scan (none, BuildScript.blockComment s)
      rw [margin.eq_2]
    have quoted : isQuote c = true := by simpa [counts, slash, star] using h
    rw [show Lexer.slash.next c = behind c by simp [next, slash, star], ← scan_quote scans quoted,
      ← scans.slash]
    show scan (none, margin ('/' :: c :: s)) = scan (none, '/' :: c :: s)
    rw [margin_slash (by simp [slash, star])]
  | literal q =>
    have inLine : isLineBreak c = false := by simpa [counts] using h
    by_cases backslash : c = '\\'
    · subst backslash
      exact scans.literal rfl
    by_cases closes : c = q
    · subst closes
      rw [show (literal c).next c = code by simp [next, inLine, backslash]]
      exact scans.literal (by simp [literalStep?, inLine, backslash])
    · rw [show (literal q).next c = literal q by simp [next, inLine, backslash, closes]]
      exact scans.literal (by simp [literalStep?, inLine, backslash, closes])
  | escape q => rfl
  | lineComment =>
    have inLine : isLineBreak c = false := by simpa [counts] using h
    simp [next, resume, skipLine, inLine]
  | blockComment =>
    by_cases star : c = '*'
    · subst star
      rfl
    rw [show blockComment.next c = blockComment by simp [next, star]]
    show scan (none, BuildScript.blockComment (c :: s)) = scan (none, BuildScript.blockComment s)
    rw [blockComment_cons_of_ne star]
  | star =>
    by_cases slash : c = '/'
    · subst slash
      show scan (none, BuildScript.blockComment ('*' :: '/' :: s)) = scan (none, margin s)
      rw [blockComment.eq_1]
    show scan (none, BuildScript.blockComment ('*' :: c :: s)) = scan ((Lexer.star.next c).resume s)
    rw [blockComment_star_of_ne slash]
    by_cases star : c = '*'
    · subst star
      rfl
    rw [show Lexer.star.next c = blockComment by simp [next, slash, star],
      blockComment_cons_of_ne star]
    rfl

/-- At a character of code skipping stands at that character, and behind it where the lexer goes. -/
theorem scan_counts (scans : PassesOver scan) {l : Lexer} (h : l.counts c = true) (s : List Char) :
    (∃ quote, literalStep? quote c s = none ∧ scan (l.resume (c :: s)) = scan (quote, c :: s)) ∧
      (l.next c).resume s = (none, afterCode c s) := by
  have code : isQuote c = false → literalStep? none c s = none := by
    intro plain
    simp [literalStep?, plain]
  cases l with
  | code =>
    have plain : isQuote c = false := by simpa [counts] using h
    exact ⟨⟨none, code plain, rfl⟩, resume_behind plain s⟩
  | lineStart =>
    have parts : (isIndent c = false ∧ c ≠ '/') ∧ isQuote c = false := by
      simpa [counts] using h
    obtain ⟨⟨notIndent, notSlash⟩, plain⟩ := parts
    refine ⟨⟨none, code plain, ?_⟩, ?_⟩
    · rw [resume, margin_cons_of_not notIndent notSlash]
    · simpa [next, notIndent, notSlash] using resume_behind plain s
  | slash =>
    have parts : (c ≠ '/' ∧ c ≠ '*') ∧ isQuote c = false := by
      simpa [counts] using h
    obtain ⟨⟨notSlash, notStar⟩, plain⟩ := parts
    refine ⟨⟨none, code plain, ?_⟩, ?_⟩
    · rw [resume, margin_slash (by simp [notSlash, notStar]), scans.slash]
    · simpa [next, notSlash, notStar] using resume_behind plain s
  | literal q =>
    have lineBreak : isLineBreak c = true := h
    refine ⟨⟨some q, by simp [literalStep?, lineBreak], rfl⟩, ?_⟩
    simp [next, lineBreak, resume, afterCode]
  | lineComment =>
    have lineBreak : isLineBreak c = true := h
    have plain : isQuote c = false := by
      cases quoted : isQuote c with
      | false => rfl
      | true => rw [isLineBreak_of_isQuote quoted] at lineBreak; cases lineBreak
    refine ⟨⟨none, code plain, by simp [resume, skipLine, lineBreak]⟩, ?_⟩
    simp [next, lineBreak, resume, afterCode]
  | escape q => cases h
  | blockComment => cases h
  | star => cases h

end Lexer

end BuildScript
