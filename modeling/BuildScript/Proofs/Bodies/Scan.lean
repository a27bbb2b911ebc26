import BuildScript.Proofs.Bodies.Syntax
import BuildScript.Proofs.Grammar.Reading
import BuildScript.Proofs.Locality.Scope
import BuildScript.Proofs.Skipped.Brackets

/-!
# Counting the braces of a body

Skipping a body and collecting the statements of a dependencies block both count braces, and both
take a comment for one only where a line begins.  Either ends at the `}` behind a body unless a
comment stands right behind one of its `{`.  Skipping ends at that `}` exactly if the braces are
balanced in what it takes for code.
-/

namespace BuildScript.Bodies

open Text Grammar

/-! ## Scans that count braces -/

/-- A scan that counts the open braces.  Anything else that is plain means nothing to it, and behind
a line break it passes over the margin of the next line. -/
structure CountsBraces {α : Type} (scan : Nat → List Char → α) : Prop where
  opening : ∀ depth r, scan depth ('{' :: r) = scan (depth + 1) r
  closing : ∀ depth r, scan (depth + 1) ('}' :: r) = scan depth r
  lineBreak : ∀ depth r {c}, isLineBreak c = true → scan depth (c :: r) = scan depth (margin r)
  plain : ∀ depth r {c}, endsValue c = false → isSpecial c = false →
    scan depth (c :: r) = scan depth r

theorem isQuote_of_isSpecial {c : Char} (h : isSpecial c = false) : isQuote c = false := by
  have : isQuote c = false ∧ c ∉ ['(', ')', '[', ']'] := by simpa [isSpecial] using h
  exact this.1

theorem not_bracket_of_isSpecial {c : Char} (h : isSpecial c = false) :
    c ≠ '(' ∧ c ≠ ')' ∧ c ≠ '[' ∧ c ≠ ']' := by
  have : isQuote c = false ∧ c ∉ ['(', ')', '[', ']'] := by simpa [isSpecial] using h
  simpa using this.2

/-- Skipping a body counts braces. -/
theorem skip_countsBraces : CountsBraces fun depth s => Pair.braces.skip depth (none, s) where
  opening depth r := Pair.skip_of_code rfl
  closing depth r := Pair.skip_of_code rfl
  lineBreak depth r c h := by
    rcases eq_of_isLineBreak h with rfl | rfl <;> exact Pair.skip_of_code rfl
  plain depth r c inValue plain := by
    obtain ⟨lineBreak, opening, closing⟩ := endsValue_eq_false_iff.1 inValue
    have code : literalStep? none c r = none := by
      simp [literalStep?, isQuote_of_isSpecial plain]
    rw [Pair.skip_of_code code]
    simp [Pair.opening, Pair.closing, opening, closing, afterCode, lineBreak]

/-- Collecting the statements of a dependencies block counts braces. -/
theorem afterStatements_countsBraces :
    CountsBraces fun depth s => afterStatements? depth none s where
  opening depth r := by simp [afterStatements?, isLineBreak, inLiteral, isQuote]
  closing depth r := by simp [afterStatements?, isLineBreak, inLiteral, isQuote]
  lineBreak depth r c h := by simp [afterStatements?, h]
  plain depth r c inValue plain := by
    obtain ⟨lineBreak, opening, closing⟩ := endsValue_eq_false_iff.1 inValue
    have brackets := not_bracket_of_isSpecial plain
    simp [afterStatements?, lineBreak, opening, closing, inLiteral, isQuote_of_isSpecial plain,
      brackets]

/-! ## Lines and bodies -/

namespace CountsBraces

variable {α : Type} {scan : Nat → List Char → α}

theorem text (counts : CountsBraces scan) {s : List Char}
    (h : ∀ c ∈ s, endsValue c = false ∧ isSpecial c = false) (depth : Nat) (rest : List Char) :
    scan depth (s ++ rest) = scan depth rest := by
  induction s with
  | nil => rfl
  | cons c s ih =>
    obtain ⟨inValue, plain⟩ := h c (by simp)
    rw [List.cons_append, counts.plain _ _ inValue plain, ih fun d hd => h d (by simp [hd])]

theorem plainText (counts : CountsBraces scan) (s : PlainText) (depth : Nat) (rest : List Char) :
    scan depth (s.1 ++ rest) = scan depth rest :=
  counts.text (fun c hc => by simpa using s.2 c hc) depth rest

theorem isSpecial_of_isDelimiter {c : Char} (h : isDelimiter c = true) : isSpecial c = false := by
  have : (c = ' ' ∨ c = '\t') ∨ c = '=' := by simpa [isDelimiter, isIndent] using h
  rcases this with (rfl | rfl) | rfl <;> decide

theorem delimiters (counts : CountsBraces scan) {s : List Char}
    (h : ∀ c ∈ s, isDelimiter c = true) (depth : Nat) (rest : List Char) :
    scan depth (s ++ rest) = scan depth rest :=
  counts.text (fun c hc => ⟨endsValue_of_isDelimiter (h c hc), isSpecial_of_isDelimiter (h c hc)⟩)
    depth rest

theorem key (counts : CountsBraces scan) (key : PlainKey) (depth : Nat) (rest : List Char) :
    scan depth (key.chars ++ rest) = scan depth rest :=
  counts.text (fun c hc => ⟨endsValue_eq_false_iff.2
    (endsWord_eq_false_iff.1 (key.inWord c hc).1).2, key.plain c hc⟩) depth rest

theorem lineBreak_text (counts : CountsBraces scan) (lineBreak : LineBreak) (depth : Nat)
    (rest : List Char) : scan depth (lineBreak.text ++ rest) = scan depth (margin rest) := by
  cases lineBreak with
  | lineFeed => exact counts.lineBreak _ _ (by decide)
  | carriageReturn => exact counts.lineBreak _ _ (by decide)
  | both =>
    rw [LineBreak.text, List.cons_append, List.singleton_append,
      counts.lineBreak _ _ (by decide), margin_lineBreak (by decide),
      counts.lineBreak _ _ (by decide)]

/-- The margin of a line that no comment begins is indentation, which means nothing. -/
theorem margin_indent (counts : CountsBraces scan) (indent : Indent) {s : List Char}
    (start : margin s = s) (depth : Nat) :
    scan depth (margin (indent.1 ++ s)) = scan depth (indent.1 ++ s) := by
  rw [margin_append_of_isIndent indent.2, start,
    counts.delimiters fun c hc => isDelimiter_of_isIndent (indent.2 c hc)]

/-- A scan passes over a text from the start of its line, and also from right behind a `{` if no
comment begins the text. -/
def Passes (scan : Nat → List Char → α) (startsWithComment : Bool) (s rest : List Char) : Prop :=
  ∀ depth, scan depth (margin s) = scan depth rest ∧
    (startsWithComment = false → scan depth s = scan depth rest)

/-- Where no comment begins, it is enough to pass over the text as it is. -/
theorem passes_of_indent (counts : CountsBraces scan) (indent : Indent) {s rest : List Char}
    (start : margin s = s) (h : ∀ depth, scan depth (indent.1 ++ s) = scan depth rest)
    (startsWithComment : Bool) : Passes scan startsWithComment (indent.1 ++ s) rest :=
  fun depth => ⟨(counts.margin_indent indent start depth).trans (h depth), fun _ => h depth⟩

mutual

theorem passes_line {commented : Bool} (counts : CountsBraces scan) (line : BodyLine commented)
    (plain : line.hasCommentBehindBrace = false) (rest : List Char) (h : EndOfLine commented rest) :
    Passes scan line.startsWithComment (line.text ++ rest) rest := by
  match line with
  | .blank indent =>
    refine counts.passes_of_indent indent (margin_of_endOfLine h) (fun depth => ?_) _
    exact counts.delimiters (fun c hc => isDelimiter_of_isIndent (indent.2 c hc)) depth rest
  | .comment indent text =>
    refine fun depth => ⟨?_, fun impossible => by cases impossible⟩
    rw [BodyLine.text, List.append_assoc]
    exact congrArg (scan depth) (margin_commentText indent text h)
  | .afterComment indent body line =>
    refine fun depth => ⟨?_, fun impossible => by cases impossible⟩
    have onward := passes_line counts line plain rest h depth
    simp only [BodyLine.text, List.append_assoc, List.cons_append]
    rw [margin_commentBody, onward.1]
  | .setting indent key separator value =>
    simp only [BodyLine.text, List.append_assoc]
    refine counts.passes_of_indent indent (margin_key key.toKey (separator.endOfKey _))
      (fun depth => ?_) _
    rw [counts.delimiters fun c hc => isDelimiter_of_isIndent (indent.2 c hc), counts.key,
      counts.delimiters separator.delimiters, counts.plainText]
  | .block indent key separators body tail =>
    obtain ⟨starts, inside⟩ :
        body.startsWithComment = false ∧ body.hasCommentBehindBrace = false := by
      simpa [BodyLine.hasCommentBehindBrace] using plain
    have brace : EndOfLine false ('}' :: (tail.1 ++ rest)) :=
      fun c hc => .inr ⟨rfl, by cases hc; rfl⟩
    have opening : EndOfKey ('{' :: (body.text ++ '}' :: (tail.1 ++ rest))) := by
      rintro c ⟨⟩
      decide
    have inner := passes_body counts body inside ('}' :: (tail.1 ++ rest)) brace
    simp only [BodyLine.text, List.append_assoc, List.cons_append]
    refine counts.passes_of_indent indent
      (margin_key key.toKey (endOfKey_separators separators opening)) (fun depth => ?_) _
    rw [counts.delimiters fun c hc => isDelimiter_of_isIndent (indent.2 c hc), counts.key,
      counts.delimiters separators.2, counts.opening, (inner (depth + 1)).2 starts, counts.closing,
      counts.plainText]

theorem passes_body {commented : Bool} (counts : CountsBraces scan) (body : Body commented)
    (plain : body.hasCommentBehindBrace = false) (rest : List Char) (h : EndOfLine commented rest) :
    Passes scan body.startsWithComment (body.text ++ rest) rest := by
  match body with
  | .last line => exact passes_line counts line plain rest h
  | .cons line lineBreak more =>
    obtain ⟨first, others⟩ :
        line.hasCommentBehindBrace = false ∧ more.hasCommentBehindBrace = false := by
      simpa [Body.hasCommentBehindBrace] using plain
    have line' := passes_line counts line first (lineBreak.text ++ (more.text ++ rest))
      (EndOfLine.lineBreak _ lineBreak _)
    have more' := passes_body counts more others rest h
    intro depth
    have onward : scan depth (lineBreak.text ++ (more.text ++ rest)) = scan depth rest := by
      rw [counts.lineBreak_text, (more' depth).1]
    simp only [Body.text, List.append_assoc]
    exact ⟨(line' depth).1.trans onward, fun starts => ((line' depth).2 starts).trans onward⟩

end

end CountsBraces

theorem endOfLine_brace (rest : List Char) : EndOfLine false ('}' :: rest) :=
  fun c hc => .inr ⟨rfl, by cases hc; rfl⟩

/-- The statements of a dependencies block end at the `}` behind the body. -/
theorem blockDependencies_text (body : Body false) (plain : body.hasCommentBehindBrace = false)
    (rest : List Char) : (blockDependencies (body.text ++ '}' :: rest)).2 = rest := by
  have passes := afterStatements_countsBraces.passes_body body plain ('}' :: rest)
    (endOfLine_brace rest) 0
  have closing : afterStatements? 0 none ('}' :: rest) = some rest := by
    simp [afterStatements?, isLineBreak, inLiteral, isQuote]
  have left : (blockDependencies (body.text ++ '}' :: rest)).2 =
      (afterStatements? 0 none (margin (body.text ++ '}' :: rest))).getD [] := statements_snd ..
  rw [left, passes.1, closing, Option.getD_some]

/-- Skip a body in braces, from its `{` on. -/
abbrev skipBraces (s : List Char) : List Char := skipBalanced '{' '}' 0 none s

theorem skipBraces_opening (s : List Char) :
    skipBraces ('{' :: s) = Pair.braces.skip 0 (none, s) :=
  skipBalanced_of_code rfl

theorem skipBraces_text (body : Body false) (starts : body.startsWithComment = false)
    (plain : body.hasCommentBehindBrace = false) (rest : List Char) :
    skipBraces ('{' :: (body.text ++ '}' :: rest)) = rest := by
  have passes := skip_countsBraces.passes_body body plain ('}' :: rest) (endOfLine_brace rest) 0
  rw [skipBraces_opening, passes.2 starts]
  exact Pair.skip_of_code rfl

/-! ## Balanced code -/

/-- The braces of the text are balanced in its code, and no literal or comment is left open. -/
structure IsBalanced (s : List Char) : Prop where
  nesting : nestingAfter? (· == '{') (· == '}') 0 (Lexer.code.codeOf s) = some 0
  closed : (Lexer.code.after s).isIdle = true

/-- Where a bracket of the code closes too much, skipping ends inside the text. -/
theorem skip_of_nestingAfter?_eq_none (pair : Pair) {s : List Char} {l : Lexer} {depth : Nat}
    (h : nestingAfter? (· == pair.opening) (· == pair.closing) depth (l.codeOf s) = none)
    (rest : List Char) : ∃ left, pair.skip depth (l.resume (s ++ rest)) = left ++ rest := by
  induction s generalizing l depth with
  | nil => cases h
  | cons c s ih =>
    rw [List.cons_append]
    cases counted : l.counts c with
    | false =>
      rw [Lexer.scan_next (pair.skip_passesOver depth) counted]
      exact ih (by simpa [Lexer.codeOf, counted] using h)
    | true =>
      obtain ⟨⟨quote, code, here⟩, onward⟩ :=
        Lexer.scan_counts (pair.skip_passesOver depth) counted (s ++ rest)
      rw [here, Pair.skip_of_code code]
      simp only [Lexer.codeOf, counted, if_true, nestingAfter?] at h
      split at h
      · next opens =>
        rw [if_pos opens]
        have inLine := Pair.not_lineBreak (.inl (beq_iff_eq.1 opens))
        have := ih h
        rwa [onward, afterCode, inLine] at this
      · next other =>
        rw [if_neg other]
        split at h
        · next closes =>
          rw [if_pos closes]
          split at h
          · exact ⟨s, rfl⟩
          · have inLine := Pair.not_lineBreak (.inr (beq_iff_eq.1 closes))
            have := ih h
            rwa [onward, afterCode, inLine] at this
        · next inner =>
          rw [if_neg inner]
          have := ih h
          rwa [onward] at this

/-- A last letter is no bracket, whatever the lexer is in. -/
theorem skip_letter (pair : Pair) (depth : Nat) (l : Lexer) :
    pair.skip depth (l.resume ['x']) = [] := by
  have nothing : ∀ quote, pair.skip depth (quote, []) = [] := by
    intro quote
    rw [Pair.skip, skipBalanced]
  cases counted : l.counts 'x' with
  | false =>
    have behind : ∃ quote, (l.next 'x').resume [] = (quote, []) := by
      cases l with
      | literal q =>
        by_cases closes : 'x' = q
        · subst closes
          exact ⟨none, rfl⟩
        · have open_ : (Lexer.literal q).next 'x' = .literal q := by
            simp [Lexer.next, isLineBreak, closes]
          exact ⟨some q, by rw [open_]; rfl⟩
      | _ => exact ⟨_, rfl⟩
    obtain ⟨quote, behind⟩ := behind
    rw [Lexer.scan_next (pair.skip_passesOver depth) counted, behind, nothing]
  | true =>
    obtain ⟨⟨quote, code, here⟩, -⟩ := Lexer.scan_counts (pair.skip_passesOver depth) counted []
    rw [here, Pair.skip_of_code code]
    cases pair <;> exact nothing none

/-- Skipping ends at the `}` behind a text, whatever follows, exactly if the braces of the text are
balanced. -/
theorem skipBraces_iff (s : List Char) :
    (∀ rest, skipBraces ('{' :: (s ++ '}' :: rest)) = rest) ↔ IsBalanced s := by
  constructor
  · intro ends
    have run := ends ['x']
    rw [skipBraces_opening] at run
    change Pair.braces.skip 0 (Lexer.code.resume (s ++ ['}', 'x'])) = ['x'] at run
    cases nesting : nestingAfter? (· == '{') (· == '}') 0 (Lexer.code.codeOf s) with
    | none =>
      obtain ⟨left, early⟩ := skip_of_nestingAfter?_eq_none .braces nesting ['}', 'x']
      rw [early] at run
      have := congrArg List.length run
      simp at this
    | some depth =>
      rw [Pair.skip_after .braces nesting] at run
      cases counted : (Lexer.code.after s).counts '}' with
      | false =>
        rw [Lexer.scan_next (Pair.braces.skip_passesOver depth) counted, skip_letter] at run
        cases run
      | true =>
        obtain ⟨⟨quote, code, here⟩, -⟩ :=
          Lexer.scan_counts (Pair.braces.skip_passesOver depth) counted ['x']
        rw [here, Pair.skip_of_code code] at run
        by_cases outside : depth = 0
        · refine ⟨outside ▸ nesting, ?_⟩
          cases last : Lexer.code.after s <;> first | rfl | (rw [last] at counted; cases counted)
        · have more : Pair.braces.skip (depth - 1) (none, ['x']) = [] :=
            skip_letter .braces (depth - 1) .code
          simp [Pair.opening, Pair.closing, outside, more] at run
  · intro balanced rest
    rw [skipBraces_opening]
    exact (Pair.skip_after .braces balanced.nesting ('}' :: rest)).trans
      (Pair.braces.skip_closing balanced.closed rest)

end BuildScript.Bodies
