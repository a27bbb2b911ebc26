import BuildScript.Comment

/-!
# Skipped text

Conditionals, method definitions and standalone calls say nothing that a document could hold.  They
are found by their keyword and their brackets and passed over as a whole: every function here
returns the text after what it skips.

Skipped text is read as code with quoted literals.  Comments stand only in the margin of a line,
and brackets inside literals and comments do not count.
-/

namespace BuildScript

open Text

/-! ## Code and literals -/

/-- Read a character that opens, continues or closes a literal: the quote that is open after it and
the text after it.  A backslash takes the next character with it.  A line break inside a literal
gives up the literal and is code, as is every character outside. -/
def literalStep? (quote : Option Char) (c : Char) (r : List Char) :
    Option (Option Char × List Char) :=
  match quote with
  | some q =>
    if isLineBreak c then none
    else if c == '\\' then some (some q, r.tail)
    else if c == q then some (none, r)
    else some (some q, r)
  | none => if isQuote c then some (some c, r) else none

theorem literalStep?_suffix {quote next : Option Char} {c : Char} {r rest : List Char}
    (h : literalStep? quote c r = some (next, rest)) : rest <:+ r := by
  have tail := List.tail_suffix r
  have all := List.suffix_refl r
  unfold literalStep? at h
  split at h
  · split at h
    · cases h
    · split at h
      · cases h; exact tail
      · split at h <;> cases h <;> exact all
  · split at h <;> cases h; exact all

/-- The text after a character of code: a line break takes the margin of the next line with it. -/
def afterCode (c : Char) (r : List Char) : List Char := if isLineBreak c then margin r else r

theorem afterCode_suffix (c : Char) (r : List Char) : afterCode c r <:+ r := by
  unfold afterCode
  split
  · exact margin_suffix r
  · exact List.suffix_refl r

/-! ## Brackets -/

/-- Skip to the character after the closing bracket that brings the depth down to zero, or to the
end of the text if there is none. -/
def skipBalanced (opening closing : Char) (depth : Nat) (quote : Option Char) :
    List Char → List Char
  | [] => []
  | c :: r =>
    match h : literalStep? quote c r with
    | some (next, rest) =>
      have := (literalStep?_suffix h).length_le
      skipBalanced opening closing depth next rest
    | none =>
      have := (afterCode_suffix c r).length_le
      if c == opening then skipBalanced opening closing (depth + 1) none r
      else if c == closing then
        if depth ≤ 1 then r else skipBalanced opening closing (depth - 1) none r
      else skipBalanced opening closing depth none (afterCode c r)
  termination_by s => s.length

/-- Skip a pair of parentheses, with blanks before it.  Without parentheses only the blanks go. -/
def skipCall (s : List Char) : List Char :=
  match skipIndent s with
  | '(' :: r => skipBalanced '(' ')' 0 none ('(' :: r)
  | s => s

/-! ## Statements -/

/-- Skip a statement without braces of its own, up to its line break or up to the `}` of the block
around it. -/
def skipStatement (depth : Nat) (quote : Option Char) : List Char → List Char
  | [] => []
  | c :: r =>
    match h : literalStep? quote c r with
    | some (next, rest) =>
      have := (literalStep?_suffix h).length_le
      skipStatement depth next rest
    | none =>
      have := (afterCode_suffix c r).length_le
      if depth == 0 && (isLineBreak c || c == '}') then c :: r
      else if c == '{' || c == '(' then skipStatement (depth + 1) none r
      else if c == '}' || c == ')' then skipStatement (depth - 1) none r
      else skipStatement depth none (afterCode c r)
  termination_by s => s.length

/-- Skip blank lines, indentation and whole-line comments. -/
def skipBlankLines (s : List Char) : List Char :=
  match h : margin s with
  | [] => []
  | c :: r =>
    have : (c :: r).length ≤ s.length := h ▸ (margin_suffix s).length_le
    if isLineBreak c then skipBlankLines r else c :: r
  termination_by s.length

theorem skipBlankLines_eq (s : List Char) :
    skipBlankLines s =
      match margin s with
      | [] => []
      | c :: r => if isLineBreak c then skipBlankLines r else c :: r := by
  rw [skipBlankLines]
  split <;> simp_all

/-- Skip what a condition governs: a block in braces or one statement. -/
def skipBody (s : List Char) : List Char :=
  match skipBlankLines s with
  | '{' :: r => skipBalanced '{' '}' 0 none ('{' :: r)
  | s => skipStatement 0 none s

/-! ## Conditionals and definitions -/

/-- The text after a keyword that stands there as a whole word. -/
def afterKeyword? (keyword : String) (s : List Char) : Option (List Char) :=
  match after? keyword.toList s with
  | some (c :: r) => if isNameChar c then none else some (c :: r)
  | rest => rest

theorem eq_append_of_afterKeyword? {keyword : String} {s rest : List Char}
    (h : afterKeyword? keyword s = some rest) : s = keyword.toList ++ rest := by
  unfold afterKeyword? at h
  split at h
  · next found =>
    split at h <;> cases h
    exact after?_eq_some_iff.1 found
  · exact after?_eq_some_iff.1 h

theorem afterKeyword?_suffix {keyword : String} {s rest : List Char}
    (h : afterKeyword? keyword s = some rest) : rest <:+ s :=
  ⟨keyword.toList, (eq_append_of_afterKeyword? h).symm⟩

theorem skipBalanced_suffix (opening closing : Char) (depth : Nat) (quote : Option Char)
    (s : List Char) : skipBalanced opening closing depth quote s <:+ s := by
  have onward : ∀ {c : Char} {r rest : List Char}, rest <:+ r → rest <:+ c :: r :=
    fun h => h.trans (List.suffix_cons _ _)
  fun_induction skipBalanced opening closing depth quote s with
  | case1 => exact List.suffix_refl []
  | case2 _ _ _ _ _ _ step _ ih => exact onward (ih.trans (literalStep?_suffix step))
  | case3 _ _ _ _ _ _ _ ih => exact onward ih
  | case4 => exact List.suffix_cons _ _
  | case5 _ _ _ _ _ _ _ _ _ ih => exact onward ih
  | case6 _ _ c r _ _ _ _ ih => exact onward (ih.trans (afterCode_suffix c r))

theorem skipCall_suffix (s : List Char) : skipCall s <:+ s := by
  have indent := skipIndent_suffix s
  unfold skipCall
  split
  · next h => exact (skipBalanced_suffix ..).trans (h ▸ indent)
  · exact indent

theorem skipStatement_suffix (depth : Nat) (quote : Option Char) (s : List Char) :
    skipStatement depth quote s <:+ s := by
  have onward : ∀ {c : Char} {r rest : List Char}, rest <:+ r → rest <:+ c :: r :=
    fun h => h.trans (List.suffix_cons _ _)
  fun_induction skipStatement depth quote s with
  | case1 => exact List.suffix_refl []
  | case2 _ _ _ _ _ _ step _ ih => exact onward (ih.trans (literalStep?_suffix step))
  | case3 => exact List.suffix_refl _
  | case4 | case5 => exact onward ‹_›
  | case6 _ _ c r _ _ _ _ _ ih => exact onward (ih.trans (afterCode_suffix c r))

theorem skipBlankLines_suffix (s : List Char) : skipBlankLines s <:+ s := by
  fun_induction skipBlankLines s with
  | case1 => exact List.nil_suffix
  | case2 s c r h _ _ ih => exact ih.trans ((List.suffix_cons c r).trans (h ▸ margin_suffix s))
  | case3 s c r h => exact h ▸ margin_suffix s

theorem skipBody_suffix (s : List Char) : skipBody s <:+ s := by
  have blank := skipBlankLines_suffix s
  unfold skipBody
  split
  · next h => exact (skipBalanced_suffix ..).trans (h ▸ blank)
  · exact (skipStatement_suffix ..).trans blank

theorem length_else_if_lt {s r rest : List Char}
    (h : afterKeyword? "else" (skipSpace (skipBody (skipCall s))) = some r)
    (h' : afterKeyword? "if" (skipSpace r) = some rest) : rest.length < s.length := by
  have onward : r.length < (skipSpace (skipBody (skipCall s))).length := by
    rw [eq_append_of_afterKeyword? h]
    simp +arith
  have back : skipSpace (skipBody (skipCall s)) <:+ s :=
    (skipSpace_suffix _).trans ((skipBody_suffix _).trans (skipCall_suffix s))
  have inner : rest <:+ r := (afterKeyword?_suffix h').trans (skipSpace_suffix r)
  exact Nat.lt_of_le_of_lt inner.length_le (Nat.lt_of_lt_of_le onward back.length_le)

/-- Skip a conditional from behind its `if`: the test in parentheses, what it governs, and every
`else` that follows. -/
def skipConditional (s : List Char) : List Char :=
  match h : afterKeyword? "else" (skipSpace (skipBody (skipCall s))) with
  | none => skipBody (skipCall s)
  | some r =>
    match h' : afterKeyword? "if" (skipSpace r) with
    | none => skipBody r
    | some rest =>
      have := length_else_if_lt h h'
      skipConditional rest
  termination_by s.length

/-- Skip an `else` from behind the keyword, with the conditional that may follow it. -/
def skipAlternative (s : List Char) : List Char :=
  match afterKeyword? "if" (skipSpace s) with
  | some r => skipConditional r
  | none => skipBody s

/-- Skip a method definition from its parameters on, with its body if it has one. -/
def skipMethod (s : List Char) : List Char :=
  match skipSpace (skipCall s) with
  | '{' :: r => skipBalanced '{' '}' 0 none ('{' :: r)
  | _ => skipCall s

/-- A character that ends the words of a definition. -/
def endsWords (c : Char) : Bool := c == '=' || c == '(' || isLineBreak c || c == '{' || c == '}'

/-- Read a definition from behind its `def`.  A variable gives its name, which is the last word
before the `=`; a method is skipped and gives none. -/
def definition (s : List Char) : Option (List Char) × List Char :=
  let name := lastWord (s.takeWhile fun c => !endsWords c)
  match s.dropWhile fun c => !endsWords c with
  | '=' :: r => (some name, r)
  | '(' :: r => (none, skipMethod ('(' :: r))
  | rest => (some name, rest)

/-! ## What is skipped

Skipping leaves an end of the text, and takes at least the character that it begins with.
-/

theorem skipBalanced_cons_suffix (opening closing : Char) (depth : Nat) (quote : Option Char)
    (c : Char) (r : List Char) : skipBalanced opening closing depth quote (c :: r) <:+ r := by
  rw [skipBalanced]
  split
  · next h => exact (skipBalanced_suffix ..).trans (literalStep?_suffix h)
  · split
    · exact skipBalanced_suffix ..
    · split
      · split
        · exact List.suffix_refl r
        · exact skipBalanced_suffix ..
      · exact (skipBalanced_suffix ..).trans (afterCode_suffix c r)

theorem skipStatement_cons_suffix {c : Char} (lineBreak : isLineBreak c = false)
    (brace : c ≠ '}') (depth : Nat) (quote : Option Char) (r : List Char) :
    skipStatement depth quote (c :: r) <:+ r := by
  rw [skipStatement]
  split
  · next h => exact (skipStatement_suffix ..).trans (literalStep?_suffix h)
  · rw [if_neg (by simp [lineBreak, brace])]
    split
    · exact skipStatement_suffix ..
    · split
      · exact skipStatement_suffix ..
      · exact (skipStatement_suffix ..).trans (afterCode_suffix c r)

theorem skipIndent_cons_of_isIndent {c : Char} (h : isIndent c = true) (r : List Char) :
    skipIndent (c :: r) = skipIndent r := by
  simp [skipIndent, h]

theorem skipCall_cons_of_isIndent {c : Char} (h : isIndent c = true) (r : List Char) :
    skipCall (c :: r) = skipCall r := by
  simp only [skipCall, skipIndent_cons_of_isIndent h]

theorem skipCall_paren_suffix (r : List Char) : skipCall ('(' :: r) <:+ r :=
  skipBalanced_cons_suffix ..

theorem skipBlankLines_cons_of_isIndent {c : Char} (h : isIndent c = true) (r : List Char) :
    skipBlankLines (c :: r) = skipBlankLines r := by
  rw [skipBlankLines_eq, skipBlankLines_eq, margin_cons_of_isIndent h]

theorem skipBody_cons_of_isIndent {c : Char} (h : isIndent c = true) (r : List Char) :
    skipBody (c :: r) = skipBody r := by
  simp only [skipBody, skipBlankLines_cons_of_isIndent h]

theorem skipBody_cons_suffix {c : Char} (space : isSpace c = false) (slash : c ≠ '/')
    (brace : c ≠ '}') (r : List Char) : skipBody (c :: r) <:+ r := by
  obtain ⟨indent, lineBreak⟩ : isIndent c = false ∧ isLineBreak c = false := by
    simpa [isSpace] using space
  have same : skipBlankLines (c :: r) = c :: r := by
    simp [skipBlankLines_eq, margin_cons_of_not indent slash, lineBreak]
  rw [skipBody, same]
  split
  · next h =>
    cases h
    exact skipBalanced_cons_suffix ..
  · exact skipStatement_cons_suffix lineBreak brace ..

theorem skipConditional_suffix_body (s : List Char) :
    skipConditional s <:+ skipBody (skipCall s) := by
  fun_induction skipConditional s with
  | case1 => exact List.suffix_refl _
  | case2 s r h h' =>
    exact (skipBody_suffix r).trans ((afterKeyword?_suffix h).trans (skipSpace_suffix _))
  | case3 s r h rest h' _ ih =>
    have inner : rest <:+ r := (afterKeyword?_suffix h').trans (skipSpace_suffix r)
    have outer : r <:+ skipBody (skipCall s) :=
      (afterKeyword?_suffix h).trans (skipSpace_suffix _)
    exact ih.trans (((skipBody_suffix _).trans (skipCall_suffix rest)).trans (inner.trans outer))

theorem skipConditional_suffix (s : List Char) : skipConditional s <:+ s :=
  (skipConditional_suffix_body s).trans ((skipBody_suffix _).trans (skipCall_suffix s))

theorem skipConditional_cons_suffix {c : Char} (h : c = '(' ∨ isDelimiter c = true)
    (r : List Char) : skipConditional (c :: r) <:+ r := by
  refine (skipConditional_suffix_body _).trans ?_
  rcases h with rfl | h
  · exact (skipBody_suffix _).trans (skipCall_paren_suffix r)
  · rcases isDelimiter_iff.1 h with indent | rfl
    · rw [skipCall_cons_of_isIndent indent]
      exact (skipBody_suffix _).trans (skipCall_suffix r)
    · exact skipBody_cons_suffix (by decide) (by decide) (by decide) r

theorem skipAlternative_cons_suffix {c : Char} (h : c = '{' ∨ isDelimiter c = true)
    (r : List Char) : skipAlternative (c :: r) <:+ r := by
  have notSpace : isSpace c = false → c ≠ '/' → c ≠ '}' → c ≠ 'i' →
      skipAlternative (c :: r) <:+ r := by
    intro space slash brace letter
    have none : afterKeyword? "if" (skipSpace (c :: r)) = none := by
      simp [afterKeyword?, skipSpace, space, after?, Ne.symm letter]
    rw [skipAlternative, none]
    exact skipBody_cons_suffix space slash brace r
  rcases h with rfl | h
  · exact notSpace (by decide) (by decide) (by decide) (by decide)
  · rcases isDelimiter_iff.1 h with indent | rfl
    · have space : skipSpace (c :: r) = skipSpace r := by simp [skipSpace, isSpace, indent]
      rw [skipAlternative, space, skipBody_cons_of_isIndent indent]
      split
      · next h =>
        exact (skipConditional_suffix _).trans ((afterKeyword?_suffix h).trans (skipSpace_suffix r))
      · exact skipBody_suffix r
    · exact notSpace (by decide) (by decide) (by decide) (by decide)

theorem skipMethod_suffix (s : List Char) : skipMethod s <:+ s := by
  have signature := skipCall_suffix s
  unfold skipMethod
  split
  · next h =>
    refine (skipBalanced_suffix ..).trans (List.IsSuffix.trans ?_ signature)
    exact h ▸ skipSpace_suffix (skipCall s)
  · exact signature

theorem definition_suffix (s : List Char) : (definition s).2 <:+ s := by
  have before : s.dropWhile (fun c => !endsWords c) <:+ s := List.dropWhile_suffix _
  simp only [definition]
  split
  · next h => exact (List.suffix_cons _ _).trans (h ▸ before)
  · next h => exact (skipMethod_suffix _).trans (h ▸ before)
  · exact before

theorem definition_cons_suffix {c : Char} (h : isDelimiter c = true) (r : List Char) :
    (definition (c :: r)).2 <:+ r := by
  rcases isDelimiter_iff.1 h with indent | rfl
  · have goesOn : endsWords c = false := by
      rcases eq_of_isIndent indent with rfl | rfl <;> decide
    have same : (definition (c :: r)).2 = (definition r).2 := by
      simp only [definition, List.dropWhile_cons, goesOn]
      simp only [Bool.not_false, if_true]
      split <;> rfl
    exact same ▸ definition_suffix r
  · exact List.suffix_refl r

end BuildScript
