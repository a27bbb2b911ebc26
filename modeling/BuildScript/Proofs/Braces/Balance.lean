import BuildScript.Proofs.Reading

/-!
# Texts with balanced braces

Plain texts, in which braces are the only brackets and nothing is quoted, commented or skipped.
The statements of a dependencies block count the braces of such a text, so that the block ends at
the `}` that matches its `{`.
-/

namespace BuildScript.Braces

open Text

/-! ## Plain texts -/

/-- Quotes, the brackets that are no braces, and the slash that opens a comment. -/
def specials : List Char := ['"', '\'', '(', ')', '[', ']', '/']

def IsPlain (s : List Char) : Prop := ∀ c ∈ s, c ∉ specials

instance (s : List Char) : Decidable (IsPlain s) := decidableForallMemText s

theorem IsPlain.of_suffix {s t : List Char} (h : IsPlain s) (suffix : t <:+ s) : IsPlain t :=
  fun c hc => h c (suffix.subset hc)

theorem IsPlain.tail {c : Char} {s : List Char} (h : IsPlain (c :: s)) : IsPlain s :=
  h.of_suffix (List.suffix_cons c s)

/-- The margin of a plain text is its indentation. -/
theorem IsPlain.margin_append {s : List Char} (h : IsPlain s) (rest : List Char) :
    margin (s ++ '}' :: rest) = skipIndent s ++ '}' :: rest := by
  induction s with
  | nil => exact margin_cons_of_not (by decide) (by decide) rest
  | cons c s ih =>
    rw [List.cons_append]
    cases indent : isIndent c with
    | true =>
      rw [margin_cons_of_isIndent indent, ih h.tail, skipIndent_cons_of_isIndent indent]
    | false =>
      have slash : c ≠ '/' := by rintro rfl; exact h '/' (by simp) (by decide)
      rw [margin_cons_of_not indent slash]
      simp [skipIndent, indent]

/-! ## Words -/

/-- The pieces of a text between delimiters, line breaks and braces. -/
def words (s : List Char) : List (List Char) := s.splitOnP endsWord

/-- Words that begin a construct which is skipped or declared. -/
def keywords : List (List Char) := ["if".toList, "else".toList, "def".toList]

theorem words_append_cons {token : List Char} (h : ∀ c ∈ token, endsWord c = false) {c : Char}
    (ends : endsWord c = true) (s : List Char) : words (token ++ c :: s) = token :: words s :=
  List.splitOnP_append_cons_of_forall_mem h c ends s

/-- The words behind the first one stay when a character is taken off the text. -/
theorem tail_words_subset (c : Char) (s : List Char) : (words s).tail ⊆ (words (c :: s)).tail := by
  rw [words, words, List.splitOnP_cons_eq_if_modifyHead]
  split
  · exact fun w hw => List.mem_of_mem_tail hw
  · cases List.splitOnP endsWord s <;> simp

/-- No word of the text, apart from one that goes on at its start, is a keyword. -/
def NoKeywords (token : Option (List Char)) (s : List Char) : Prop :=
  match token with
  | some token => (∀ c ∈ token, endsWord c = false) ∧ ∀ w ∈ words (token ++ s), w ∉ keywords
  | none => ∀ w ∈ (words s).tail, w ∉ keywords

theorem NoKeywords.forget {s : List Char} (h : NoKeywords (some []) s) : NoKeywords none s :=
  fun w hw => h.2 w (by simpa using List.mem_of_mem_tail hw)

theorem NoKeywords.tail {c : Char} {s : List Char} (h : NoKeywords none (c :: s)) :
    NoKeywords none s :=
  fun w hw => h w (tail_words_subset c s hw)

theorem NoKeywords.of_suffix {s t : List Char} (h : NoKeywords none s) (suffix : t <:+ s) :
    NoKeywords none t := by
  obtain ⟨before, rfl⟩ := suffix
  induction before with
  | nil => exact h
  | cons c before ih => exact ih (NoKeywords.tail h)

theorem NoKeywords.push {token : List Char} {c : Char} {s : List Char}
    (h : NoKeywords (some token) (c :: s)) (goesOn : endsWord c = false) :
    NoKeywords (some (token ++ [c])) s := by
  refine ⟨?_, by simpa using h.2⟩
  intro d hd
  rcases List.mem_append.1 hd with inToken | isLast
  · exact h.1 d inToken
  · rw [List.mem_singleton.1 isLast]
    exact goesOn

theorem NoKeywords.word {token : List Char} {c : Char} {s : List Char}
    (h : NoKeywords (some token) (c :: s)) (ends : endsWord c = true) :
    token ∉ keywords ∧ NoKeywords (some []) s := by
  have split := words_append_cons h.1 ends s
  refine ⟨h.2 token (by simp [split]), by simp, ?_⟩
  intro w hw
  exact h.2 w (by rw [split]; exact List.mem_cons_of_mem _ (by simpa using hw))

/-- Behind a character that ends a word, the words of the text are whole. -/
theorem NoKeywords.next {token : Option (List Char)} {c : Char} {s : List Char}
    (h : NoKeywords token (c :: s)) (ends : endsWord c = true) : NoKeywords (some []) s := by
  cases token with
  | some token => exact (NoKeywords.word h ends).2
  | none =>
    refine ⟨by simp, ?_⟩
    intro w hw
    refine h w ?_
    rw [words, List.splitOnP_cons_eq_if_modifyHead, if_pos ends]
    simpa [words] using hw

/-! ## Balance -/

/-- Behind some open braces, the text closes these and all that it opens, and nothing more. -/
structure Balanced (depth : Nat) (s : List Char) : Prop where
  within : ∀ p, p <+: s → p.count '}' ≤ depth + p.count '{'
  total : s.count '}' = depth + s.count '{'

namespace Balanced

variable {depth : Nat} {s : List Char}

theorem nil (h : Balanced depth []) : depth = 0 := by
  simpa using h.total.symm

theorem opening (h : Balanced depth ('{' :: s)) : Balanced (depth + 1) s where
  within p hp := by
    have := h.within ('{' :: p) ((List.prefix_cons_inj '{').2 hp)
    simp at this
    omega
  total := by
    have := h.total
    simp at this
    omega

theorem closing (h : Balanced depth ('}' :: s)) :
    ∃ outer, depth = outer + 1 ∧ Balanced outer s := by
  have first := h.within ['}'] (List.prefix_append ['}'] s)
  simp at first
  refine ⟨depth - 1, by omega, ?_, ?_⟩
  · intro p hp
    have := h.within ('}' :: p) ((List.prefix_cons_inj '}').2 hp)
    simp at this
    omega
  · have := h.total
    simp at this
    omega

theorem tail {c : Char} (h : Balanced depth (c :: s)) (opening : c ≠ '{') (closing : c ≠ '}') :
    Balanced depth s where
  within p hp := by
    have := h.within (c :: p) ((List.prefix_cons_inj c).2 hp)
    simpa [opening, closing] using this
  total := by
    have := h.total
    simpa [opening, closing] using this

theorem skipIndent (h : Balanced depth s) : Balanced depth (skipIndent s) := by
  induction s with
  | nil => exact h
  | cons c s ih =>
    cases indent : isIndent c with
    | true =>
      rw [skipIndent_cons_of_isIndent indent]
      exact ih (h.tail (by rintro rfl; cases indent) (by rintro rfl; cases indent))
    | false => simpa [BuildScript.skipIndent, indent] using h

end Balanced

/-! ## Bodies of dependencies blocks -/

/-- The text behind the `}` that closes the braces that are open and one more. -/
def afterBraces (depth : Nat) : List Char → List Char
  | [] => []
  | c :: r =>
    if c == '{' then afterBraces (depth + 1) r
    else if c == '}' then if depth = 0 then r else afterBraces (depth - 1) r
    else afterBraces depth r

theorem afterBraces_suffix (depth : Nat) (s : List Char) : afterBraces depth s <:+ s := by
  fun_induction afterBraces depth s with
  | case1 => exact List.suffix_refl []
  | case2 _ _ _ _ ih => exact ih.trans (List.suffix_cons _ _)
  | case3 => exact List.suffix_cons _ _
  | case4 _ _ _ _ _ _ ih => exact ih.trans (List.suffix_cons _ _)
  | case5 _ _ _ _ _ ih => exact ih.trans (List.suffix_cons _ _)

theorem afterBraces_cons_of_not {c : Char} (opening : c ≠ '{') (closing : c ≠ '}') (depth : Nat)
    (r : List Char) : afterBraces depth (c :: r) = afterBraces depth r := by
  simp [afterBraces, opening, closing]

theorem afterBraces_skipIndent (depth : Nat) (s : List Char) :
    afterBraces depth (skipIndent s) = afterBraces depth s := by
  induction s with
  | nil => rfl
  | cons c s ih =>
    cases indent : isIndent c with
    | true =>
      have opening : c ≠ '{' := by rintro rfl; cases indent
      have closing : c ≠ '}' := by rintro rfl; cases indent
      rw [skipIndent_cons_of_isIndent indent, ih, afterBraces_cons_of_not opening closing]
    | false => simp [skipIndent, indent]

theorem IsPlain.not_quote {s : List Char} (h : IsPlain s) {c : Char} (hc : c ∈ s) :
    isQuote c = false := by
  have := h c hc
  simp [specials] at this
  simp [isQuote, this]

theorem IsPlain.not_bracket {s : List Char} (h : IsPlain s) {c : Char} (hc : c ∈ s) :
    c ≠ '(' ∧ c ≠ ')' ∧ c ≠ '[' ∧ c ≠ ']' := by
  have := h c hc
  simp [specials] at this
  simp [this]

theorem IsPlain.statementRole {s : List Char} (h : IsPlain s) {c : Char} (hc : c ∈ s)
    (opening : c ≠ '{') (closing : c ≠ '}') (lineBreak : isLineBreak c = false) (depth : Nat) :
    statementRole depth none c = .inside depth none := by
  obtain ⟨openParen, closeParen, openBracket, closeBracket⟩ := h.not_bracket hc
  simp [BuildScript.statementRole, inLiteral, h.not_quote hc, lineBreak, opening, closing,
    openParen, closeParen, openBracket, closeBracket]

/-- The statements of a plain body end at the `}` that matches the `{` of the block. -/
theorem statements_plain {s : List Char} (plain : IsPlain s) (depth outer : Nat)
    (current : String) (rest : List Char) (balanced : Balanced (depth + 1 + outer) s) :
    (statements depth none current (s ++ '}' :: rest)).2 = afterBraces depth s ++ '}' :: rest ∧
      Balanced outer (afterBraces depth s) := by
  match s with
  | [] =>
    have := balanced.nil
    omega
  | c :: s =>
    rw [List.cons_append]
    by_cases opening : c = '{'
    · subst opening
      rw [statements_of_inside rfl]
      exact statements_plain plain.tail (depth + 1) outer (current.push '{') rest
        (by simpa [Nat.add_right_comm] using balanced.opening)
    by_cases closing : c = '}'
    · subst closing
      obtain ⟨less, same, closed⟩ := balanced.closing
      cases depth with
      | zero =>
        obtain rfl : less = outer := by omega
        rw [statements_of_closing rfl]
        exact ⟨rfl, closed⟩
      | succ depth =>
        obtain rfl : less = depth + 1 + outer := by omega
        rw [statements_of_inside rfl]
        exact statements_plain plain.tail depth outer (current.push '}') rest closed
    have others := balanced.tail opening closing
    rw [afterBraces_cons_of_not opening closing]
    cases lineBreak : isLineBreak c with
    | true =>
      have shorter := (skipIndent_suffix s).length_le
      have inner := fun current => statements_plain (plain.tail.of_suffix (skipIndent_suffix s))
        depth outer current rest others.skipIndent
      simp only [afterBraces_skipIndent] at inner
      obtain ⟨current', before, onward⟩ := statements_lineBreak depth current lineBreak
      rw [onward, plain.tail.margin_append]
      exact inner current'
    | false =>
      rw [statements_of_inside (plain.statementRole (by simp) opening closing lineBreak depth)]
      exact statements_plain plain.tail depth outer (current.push c) rest others
termination_by s.length

theorem blockDependencies_plain {s : List Char} (plain : IsPlain s) {outer : Nat}
    (rest : List Char) (balanced : Balanced (outer + 1) s) :
    (blockDependencies (s ++ '}' :: rest)).2 = afterBraces 0 s ++ '}' :: rest ∧
      Balanced outer (afterBraces 0 s) := by
  have body := statements_plain (plain.of_suffix (skipIndent_suffix s)) 0 outer "" rest
    (by simpa [Nat.add_comm] using balanced.skipIndent)
  rw [afterBraces_skipIndent] at body
  simpa only [blockDependencies, blockStatements, plain.margin_append] using body

end BuildScript.Braces
