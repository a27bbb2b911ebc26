import BuildScript.Comment

/-!
# Margins of a known text

What the margin of a line takes when the text before it is known: indentation, a whole comment, or
nothing when the line begins with something else.
-/

namespace BuildScript

theorem margin_append_of_isIndent {indent : List Char} (h : ∀ c ∈ indent, isIndent c = true)
    (s : List Char) : margin (indent ++ s) = margin s := by
  induction indent with
  | nil => rfl
  | cons c indent ih =>
    rw [List.cons_append, margin_cons_of_isIndent (h c (by simp))]
    exact ih fun d hd => h d (by simp [hd])

/-- A text that begins with neither indentation nor a comment has no margin. -/
theorem margin_eq_self {s : List Char} (indent : ∀ c ∈ s.head?, isIndent c = false)
    (line : ¬ ['/', '/'] <+: s) (block : ¬ ['/', '*'] <+: s) : margin s = s := by
  cases s with
  | nil => rfl
  | cons c r =>
    rw [margin.eq_3 c r
      (fun rest slash second => line ⟨rest, by rw [slash, second]; rfl⟩)
      (fun rest slash second => block ⟨rest, by rw [slash, second]; rfl⟩),
      indent c (by simp)]
    rfl

/-- What stands behind a text makes no comment of it unless it completes an opener. -/
theorem margin_append_eq_self {s : List Char} (nonempty : s ≠ [])
    (indent : ∀ c ∈ s.head?, isIndent c = false) (line : ¬ ['/', '/'] <+: s)
    (block : ¬ ['/', '*'] <+: s) {rest : List Char} (h : ∀ c ∈ rest.head?, c ≠ '/' ∧ c ≠ '*') :
    margin (s ++ rest) = s ++ rest := by
  obtain ⟨first, others, rfl⟩ := List.exists_cons_of_ne_nil nonempty
  have noComment : ∀ second, (∀ c ∈ rest.head?, c ≠ second) →
      ¬ ['/', second] <+: first :: others → ¬ ['/', second] <+: first :: others ++ rest := by
    rintro second behind absent ⟨tail, same⟩
    cases others with
    | nil =>
      have : rest = second :: tail := (List.cons.inj same).2.symm
      exact behind second (by simp [this]) rfl
    | cons next others =>
      simp only [List.cons_append, List.cons.injEq] at same
      exact absent ⟨others, by rw [same.1, same.2.1]; rfl⟩
  exact margin_eq_self (fun c hc => indent c hc) (noComment '/' (fun c hc => (h c hc).1) line)
    (noComment '*' (fun c hc => (h c hc).2) block)

theorem margin_lineBreak {c : Char} (h : isLineBreak c = true) (r : List Char) :
    margin (c :: r) = c :: r := by
  rcases eq_of_isLineBreak h with rfl | rfl <;> exact margin_cons_of_not (by decide) (by decide) r

theorem skipLine_append {text rest : List Char} (h : ∀ c ∈ text, isLineBreak c = false)
    (stop : ∀ c ∈ rest.head?, isLineBreak c = true) : skipLine (text ++ rest) = rest := by
  have all : ∀ c ∈ text, (!isLineBreak c) = true := fun c hc => by simp [h c hc]
  rw [skipLine, List.dropWhile_append_of_pos all]
  cases rest with
  | nil => rfl
  | cons c rest => simp [stop c (by simp)]

/-- A line comment leaves the line break that ends it. -/
theorem margin_lineComment {text rest : List Char} (h : ∀ c ∈ text, isLineBreak c = false)
    (stop : ∀ c ∈ rest.head?, isLineBreak c = true) :
    margin ('/' :: '/' :: (text ++ rest)) = rest := by
  rw [margin.eq_1]
  exact skipLine_append h stop

theorem blockComment_append {body : List Char} (h : ¬ ['*', '/'] <:+: body) (rest : List Char) :
    blockComment (body ++ '*' :: '/' :: rest) = margin rest := by
  induction body with
  | nil => rw [List.nil_append, blockComment.eq_1]
  | cons c body ih =>
    have inner : ¬ ['*', '/'] <:+: body := fun found =>
      h (found.trans (List.suffix_cons c body).isInfix)
    have open_ : ∀ r, c = '*' → body ++ '*' :: '/' :: rest = '/' :: r → False := by
      intro r star slash
      cases body with
      | nil => simp at slash
      | cons d body =>
        have : d = '/' := by simpa using congrArg List.head? slash
        subst this star
        exact h (List.prefix_append ['*', '/'] body).isInfix
    rw [List.cons_append, blockComment.eq_2 c _ open_]
    exact ih inner

/-- The first close ends a block comment, and the margin goes on behind it. -/
theorem margin_blockComment {body : List Char} (h : ¬ ['*', '/'] <:+: body) (rest : List Char) :
    margin ('/' :: '*' :: (body ++ '*' :: '/' :: rest)) = margin rest := by
  rw [margin.eq_2]
  exact blockComment_append h rest

/-- A block comment without a close leaves nothing. -/
theorem margin_unclosedComment {body : List Char} (h : ¬ ['*', '/'] <:+: body) :
    margin ('/' :: '*' :: body) = [] := by
  rw [margin.eq_2]
  induction body with
  | nil => rfl
  | cons c body ih =>
    have inner : ¬ ['*', '/'] <:+: body := fun found =>
      h (found.trans (List.suffix_cons c body).isInfix)
    have open_ : ∀ r, c = '*' → body = '/' :: r → False := by
      rintro r rfl rfl
      exact h (List.prefix_append ['*', '/'] r).isInfix
    rw [blockComment.eq_2 c body open_]
    exact ih inner

end BuildScript
