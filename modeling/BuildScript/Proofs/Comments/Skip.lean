import BuildScript.Proofs.Comments.Line

/-!
# Comment lines in skipped text

Where the skipping functions begin a line, a comment line changes nothing: inside brackets, among
the blank lines before a body, and between the statements of a skipped block.  An `else` is looked
for across white space alone, so that a comment line before it ends the skipped text there.
-/

namespace BuildScript

open Text

variable {s s' t r r' : List Char}

/-! ## Brackets -/

/-- The lines that begin in the text up to the closing bracket. -/
def balancedLines (opening closing : Char) (depth : Nat) (quote : Option Char) :
    List Char → List (List Char)
  | [] => []
  | c :: r =>
    match h : literalStep? quote c r with
    | some (next, rest) =>
      have := (literalStep?_suffix h).length_le
      balancedLines opening closing depth next rest
    | none =>
      have := (afterCode_suffix c r).length_le
      if c == opening then balancedLines opening closing (depth + 1) none r
      else if c == closing then
        if depth ≤ 1 then [] else balancedLines opening closing (depth - 1) none r
      else lineIf (isLineBreak c) r ++ balancedLines opening closing depth none (afterCode c r)
  termination_by s => s.length

theorem beginsLine_of_mem_balancedLines {opening closing : Char} {depth : Nat}
    {quote : Option Char} (line : t ∈ balancedLines opening closing depth quote s) :
    BeginsLine t s := by
  fun_induction balancedLines opening closing depth quote s with
  | case1 => cases line
  | case2 _ _ c _ _ _ taken _ ih => exact ((ih line).of_suffix (literalStep?_suffix taken)).cons c
  | case3 _ _ c _ _ _ _ ih => exact (ih line).cons c
  | case4 => cases line
  | case5 _ _ c _ _ _ _ _ _ ih => exact (ih line).cons c
  | case6 _ _ c r _ _ _ _ ih =>
    rcases List.mem_append.1 line with here | later
    · obtain ⟨lineBreak, rfl⟩ := mem_lineIf.1 here
      exact ⟨c, lineBreak, List.suffix_refl _⟩
    · exact ((ih later).of_suffix (afterCode_suffix c r)).cons c

theorem literalStep?_lineBreak {c : Char} (h : isLineBreak c = true) (quote : Option Char)
    (r : List Char) : literalStep? quote c r = none := by
  cases quote with
  | none =>
    have notQuote : isQuote c = false := by rcases eq_of_isLineBreak h with rfl | rfl <;> rfl
    simp [literalStep?, notQuote]
  | some q => simp [literalStep?, h]

theorem skipBalanced_lineBreak {opening closing c : Char}
    (plain : isLineBreak opening = false ∧ isLineBreak closing = false) (h : isLineBreak c = true)
    (depth : Nat) (quote : Option Char) (r : List Char) :
    skipBalanced opening closing depth quote (c :: r) =
      skipBalanced opening closing depth none (margin r) := by
  have other : ∀ {bracket : Char}, isLineBreak bracket = false → ¬ (c == bracket) = true := by
    rintro bracket inLine same
    rw [eq_of_beq same, inLine] at h
    cases h
  rw [skipBalanced_of_code (literalStep?_lineBreak h quote r), if_neg (other plain.1),
    if_neg (other plain.2), afterCode, if_pos h]

theorem transparent_skipBalanced {opening closing : Char}
    (plain : isLineBreak opening = false ∧ isLineBreak closing = false) (depth : Nat)
    (quote : Option Char) :
    Transparent (skipBalanced opening closing depth quote)
      (balancedLines opening closing depth quote) := by
  refine ⟨beginsLine_of_mem_balancedLines, ?_⟩
  intro note s s' t line agree
  fun_induction balancedLines opening closing depth quote s generalizing s' with
  | case1 => cases line
  | case2 depth quote c r next rest taken _ ih =>
    have before := (beginsLine_of_mem_balancedLines line).length_lt
    obtain ⟨r', rfl, behind⟩ := agree.behind (literalStep?_suffix taken) before
    obtain ⟨rest', taken', onward⟩ := literalStep?_agree taken behind before
    rw [skipBalanced_of_literal taken, skipBalanced_of_literal taken']
    exact ih line onward
  | case3 depth quote c r code _ opens ih =>
    obtain ⟨r', rfl, behind⟩ := (beginsLine_of_mem_balancedLines line).behind agree
    rw [skipBalanced_of_code code, skipBalanced_of_code (literalStep?_eq_none code r'),
      if_pos opens, if_pos opens]
    exact ih line behind
  | case4 => cases line
  | case5 depth quote c r code _ other closes more ih =>
    obtain ⟨r', rfl, behind⟩ := (beginsLine_of_mem_balancedLines line).behind agree
    rw [skipBalanced_of_code code, skipBalanced_of_code (literalStep?_eq_none code r'),
      if_neg other, if_neg other, if_pos closes, if_pos closes, if_neg more, if_neg more]
    exact ih line behind
  | case6 depth quote c r code _ other inner ih =>
    rcases List.mem_append.1 line with here | later
    · obtain ⟨lineBreak, rfl⟩ := mem_lineIf.1 here
      rw [agree.at_mark, skipBalanced_lineBreak plain lineBreak,
        skipBalanced_lineBreak plain lineBreak]
      exact note.passes (fun h => skipBalanced_lineBreak plain h depth none) t
    · have before := (beginsLine_of_mem_balancedLines later).length_lt
      obtain ⟨r', rfl, behind⟩ := agree.behind (afterCode_suffix c r) before
      rw [skipBalanced_of_code code, skipBalanced_of_code (literalStep?_eq_none code r'),
        if_neg other, if_neg other, if_neg inner, if_neg inner]
      exact ih later (afterCode_local c behind before)

/-- The text from behind an opening bracket on. -/
theorem skipBalanced_opening {opening closing : Char} (h : isQuote opening = false)
    (r : List Char) :
    skipBalanced opening closing 0 none (opening :: r) =
      skipBalanced opening closing 1 none r := by
  have code : literalStep? none opening r = none := by simp [literalStep?, h]
  rw [skipBalanced_of_code code, if_pos (beq_self_eq_true opening)]

/-- The lines that begin in a pair of parentheses, from before the blanks on. -/
def callLines (s : List Char) : List (List Char) :=
  match skipIndent s with
  | '(' :: r => balancedLines '(' ')' 1 none r
  | _ => []

theorem transparent_skipCall : Transparent skipCall callLines := by
  constructor
  · intro s t line
    unfold callLines at line
    split at line
    · next r call =>
      exact ((beginsLine_of_mem_balancedLines line).cons '(').of_suffix (call ▸ skipIndent_suffix s)
    · cases line
  · intro note s s' t line agree
    have ahead := agree.skipIndent
    unfold callLines at line
    unfold skipCall
    generalize skipIndent s = call at ahead line ⊢
    generalize skipIndent s' = call' at ahead ⊢
    split at line
    · next r =>
      obtain ⟨r', rfl, behind⟩ := (beginsLine_of_mem_balancedLines line).behind ahead
      show skipBalanced '(' ')' 0 none ('(' :: r') = skipBalanced '(' ')' 0 none ('(' :: r)
      rw [skipBalanced_opening (by decide), skipBalanced_opening (by decide)]
      exact (transparent_skipBalanced (by decide) 1 none).same note line behind
    · cases line

/-! ## Statements -/

/-- The lines that begin in a statement without braces of its own. -/
def statementLines (depth : Nat) (quote : Option Char) : List Char → List (List Char)
  | [] => []
  | c :: r =>
    match h : literalStep? quote c r with
    | some (next, rest) =>
      have := (literalStep?_suffix h).length_le
      statementLines depth next rest
    | none =>
      have := (afterCode_suffix c r).length_le
      if depth == 0 && (isLineBreak c || c == '}') then []
      else if c == '{' || c == '(' then statementLines (depth + 1) none r
      else if c == '}' || c == ')' then statementLines (depth - 1) none r
      else lineIf (isLineBreak c) r ++ statementLines depth none (afterCode c r)
  termination_by s => s.length

theorem beginsLine_of_mem_statementLines {depth : Nat} {quote : Option Char}
    (line : t ∈ statementLines depth quote s) : BeginsLine t s := by
  fun_induction statementLines depth quote s with
  | case1 => cases line
  | case2 _ _ c _ _ _ taken _ ih => exact ((ih line).of_suffix (literalStep?_suffix taken)).cons c
  | case3 => cases line
  | case4 _ _ c _ _ _ _ _ ih => exact (ih line).cons c
  | case5 _ _ c _ _ _ _ _ _ ih => exact (ih line).cons c
  | case6 _ _ c r _ _ _ _ _ ih =>
    rcases List.mem_append.1 line with here | later
    · obtain ⟨lineBreak, rfl⟩ := mem_lineIf.1 here
      exact ⟨c, lineBreak, List.suffix_refl _⟩
    · exact ((ih later).of_suffix (afterCode_suffix c r)).cons c

/-- Inside brackets a statement goes on behind a line break. -/
theorem skipStatement_lineBreak {depth : Nat} (inner : depth ≠ 0) {c : Char}
    (h : isLineBreak c = true) (quote : Option Char) (r : List Char) :
    skipStatement depth quote (c :: r) = skipStatement depth none (margin r) := by
  rw [skipStatement_of_code (literalStep?_lineBreak h quote r), afterCode, if_pos h]
  rcases eq_of_isLineBreak h with rfl | rfl <;> simp [inner]

theorem transparent_skipStatement (depth : Nat) (quote : Option Char) :
    Transparent (skipStatement depth quote) (statementLines depth quote) := by
  refine ⟨beginsLine_of_mem_statementLines, ?_⟩
  intro note s s' t line agree
  fun_induction statementLines depth quote s generalizing s' with
  | case1 => cases line
  | case2 depth quote c r next rest taken _ ih =>
    have before := (beginsLine_of_mem_statementLines line).length_lt
    obtain ⟨r', rfl, behind⟩ := agree.behind (literalStep?_suffix taken) before
    obtain ⟨rest', taken', onward⟩ := literalStep?_agree taken behind before
    rw [skipStatement_of_literal taken, skipStatement_of_literal taken']
    exact ih line onward
  | case3 => cases line
  | case4 depth quote c r code _ goesOn opens ih =>
    obtain ⟨r', rfl, behind⟩ := (beginsLine_of_mem_statementLines line).behind agree
    rw [skipStatement_of_code code, skipStatement_of_code (literalStep?_eq_none code r'),
      if_neg goesOn, if_neg goesOn, if_pos opens, if_pos opens]
    exact ih line behind
  | case5 depth quote c r code _ goesOn other closes ih =>
    obtain ⟨r', rfl, behind⟩ := (beginsLine_of_mem_statementLines line).behind agree
    rw [skipStatement_of_code code, skipStatement_of_code (literalStep?_eq_none code r'),
      if_neg goesOn, if_neg goesOn, if_neg other, if_neg other, if_pos closes, if_pos closes]
    exact ih line behind
  | case6 depth quote c r code _ goesOn other plain ih =>
    rcases List.mem_append.1 line with here | later
    · obtain ⟨lineBreak, rfl⟩ := mem_lineIf.1 here
      have inner : depth ≠ 0 := by
        rintro rfl
        simp [lineBreak] at goesOn
      rw [agree.at_mark, skipStatement_lineBreak inner lineBreak,
        skipStatement_lineBreak inner lineBreak]
      exact note.passes (fun h => skipStatement_lineBreak inner h none) t
    · have before := (beginsLine_of_mem_statementLines later).length_lt
      obtain ⟨r', rfl, behind⟩ := agree.behind (afterCode_suffix c r) before
      rw [skipStatement_of_code code, skipStatement_of_code (literalStep?_eq_none code r'),
        if_neg goesOn, if_neg goesOn, if_neg other, if_neg other, if_neg plain, if_neg plain]
      exact ih later (afterCode_local c behind before)

/-! ## Bodies -/

/-- The lines behind blank lines and comment lines, up to the first line with something else. -/
def blankLines (s : List Char) : List (List Char) :=
  match h : margin s with
  | [] => []
  | c :: r =>
    have : (c :: r).length ≤ s.length := h ▸ (margin_suffix s).length_le
    if isLineBreak c then r :: blankLines r else []
  termination_by s.length

theorem CommentLine.skipBlankLines_text (note : CommentLine) (t : List Char) :
    skipBlankLines (note.text ++ t) = skipBlankLines t := by
  rw [skipBlankLines_eq, note.margin_text]
  cases note.lineBreak with
  | lineFeed => rfl
  | carriageReturn => rfl
  | both =>
    show skipBlankLines ('\n' :: t) = skipBlankLines t
    rw [skipBlankLines_eq, margin_lineBreak (by decide)]
    rfl

theorem skipBlankLines_of_lineBreak {c : Char} (h : isLineBreak c = true)
    (blank : margin s = c :: r) : skipBlankLines s = skipBlankLines r := by
  rw [skipBlankLines_eq, blank]
  exact if_pos h

theorem beginsLine_of_mem_blankLines (line : t ∈ blankLines s) : BeginsLine t s := by
  fun_induction blankLines s with
  | case1 => cases line
  | case2 s c r blank _ lineBreak ih =>
    have behind : c :: r <:+ s := blank ▸ margin_suffix s
    rcases List.mem_cons.1 line with rfl | later
    · exact ⟨c, lineBreak, behind⟩
    · exact ((ih later).cons c).of_suffix behind
  | case3 => cases line

theorem transparent_skipBlankLines : Transparent skipBlankLines blankLines := by
  refine ⟨beginsLine_of_mem_blankLines, ?_⟩
  intro note s s' t line agree
  fun_induction blankLines s generalizing s' with
  | case1 => cases line
  | case2 s c r blank _ lineBreak ih =>
    have here : t.length ≤ r.length := by
      rcases List.mem_cons.1 line with rfl | later
      · exact Nat.le_refl _
      · exact Nat.le_of_lt (beginsLine_of_mem_blankLines later).length_lt
    have ahead := margin_local agree (by rw [blank]; exact Nat.lt_succ_of_le here)
    rw [blank] at ahead
    rw [skipBlankLines_of_lineBreak lineBreak blank]
    rcases List.mem_cons.1 line with rfl | later
    · rw [skipBlankLines_of_lineBreak lineBreak ahead.at_mark]
      exact note.skipBlankLines_text t
    · obtain ⟨r', blank', behind⟩ := (beginsLine_of_mem_blankLines later).behind ahead
      rw [skipBlankLines_of_lineBreak lineBreak blank']
      exact ih later behind
  | case3 => cases line

/-- Skip a block in braces or one statement. -/
def skipGoverned : List Char → List Char
  | '{' :: r => skipBalanced '{' '}' 0 none ('{' :: r)
  | s => skipStatement 0 none s

/-- The lines that begin in a block in braces or in one statement. -/
def governedLines : List Char → List (List Char)
  | '{' :: r => balancedLines '{' '}' 1 none r
  | s => statementLines 0 none s

theorem transparent_skipGoverned : Transparent skipGoverned governedLines := by
  constructor
  · intro s t line
    unfold governedLines at line
    split at line
    · exact (beginsLine_of_mem_balancedLines line).cons '{'
    · exact beginsLine_of_mem_statementLines line
  · intro note s s' t line agree
    unfold governedLines at line
    split at line
    · next r =>
      obtain ⟨r', rfl, behind⟩ := (beginsLine_of_mem_balancedLines line).behind agree
      show skipBalanced '{' '}' 0 none ('{' :: r') = skipBalanced '{' '}' 0 none ('{' :: r)
      rw [skipBalanced_opening (by decide), skipBalanced_opening (by decide)]
      exact (transparent_skipBalanced (by decide) 1 none).same note line behind
    · next absent =>
      have statement : ∀ {s}, (∀ rest, s = '{' :: rest → False) →
          skipGoverned s = skipStatement 0 none s := by
        intro s absent
        unfold skipGoverned
        split
        · next rest => exact (absent rest rfl).elim
        · rfl
      rw [statement absent, statement (agree.first_ne absent)]
      exact (transparent_skipStatement 0 none).same note line agree

/-- The lines that begin in what a condition governs, and the blank lines before it. -/
def bodyLines (s : List Char) : List (List Char) :=
  blankLines s ++ governedLines (skipBlankLines s)

theorem transparent_skipBody : Transparent skipBody bodyLines :=
  transparent_skipGoverned.comp transparent_skipBlankLines skipBlankLines_local
    skipBlankLines_suffix

/-! ## Conditionals and methods -/

/-- The lines that begin in the test of a conditional and in its first body. -/
def branchLines (s : List Char) : List (List Char) := callLines s ++ bodyLines (skipCall s)

theorem transparent_branch : Transparent (skipBody ∘ skipCall) branchLines :=
  transparent_skipBody.comp transparent_skipCall skipCall_local skipCall_suffix

/-- The lines that begin in the tests and the bodies of a conditional. -/
def conditionalLines (s : List Char) : List (List Char) :=
  match h : afterKeyword? "else" (skipSpace (skipBody (skipCall s))) with
  | none => branchLines s
  | some r =>
    match h' : afterKeyword? "if" (skipSpace r) with
    | none => branchLines s ++ bodyLines r
    | some rest =>
      have := length_else_if_lt h h'
      branchLines s ++ conditionalLines rest
  termination_by s.length

theorem skipConditional_congr (h : skipBody (skipCall s') = skipBody (skipCall s)) :
    skipConditional s' = skipConditional s := by
  rw [skipConditional_eq s, skipConditional_eq s', h]

theorem else_suffix (found : afterKeyword? "else" (skipSpace (skipBody (skipCall s))) = some r) :
    r <:+ s :=
  (afterKeyword?_suffix found).trans
    ((skipSpace_suffix _).trans ((skipBody_suffix _).trans (skipCall_suffix s)))

theorem elseIf_suffix {rest : List Char}
    (found : afterKeyword? "else" (skipSpace (skipBody (skipCall s))) = some r)
    (more : afterKeyword? "if" (skipSpace r) = some rest) : rest <:+ s :=
  (afterKeyword?_suffix more).trans ((skipSpace_suffix r).trans (else_suffix found))

theorem beginsLine_of_mem_conditionalLines (line : t ∈ conditionalLines s) : BeginsLine t s := by
  fun_induction conditionalLines s with
  | case1 s absent => exact transparent_branch.begins line
  | case2 s r found absent =>
    rcases List.mem_append.1 line with first | second
    · exact transparent_branch.begins first
    · exact (transparent_skipBody.begins second).of_suffix (else_suffix found)
  | case3 s r found rest more _ ih =>
    rcases List.mem_append.1 line with first | later
    · exact transparent_branch.begins first
    · exact (ih later).of_suffix (elseIf_suffix found more)

/-- Texts that agree through the test and the first body of a conditional agree behind its `else`. -/
theorem behind_else {u u' : List Char} (agree : Agree u u' s s')
    (found : afterKeyword? "else" (skipSpace (skipBody (skipCall s))) = some r)
    (longer : u.length < r.length) :
    ∃ r', afterKeyword? "else" (skipSpace (skipBody (skipCall s'))) = some r' ∧
      Agree u u' r r' := by
  have body : Local (skipBody ∘ skipCall) := skipBody_local.comp skipCall_local skipBody_suffix
  have before : u.length < (skipBody (skipCall s)).length :=
    Nat.lt_of_lt_of_le longer ((afterKeyword?_suffix found).trans (skipSpace_suffix _)).length_le
  exact (body agree before).keyword_found isWord_else found longer

theorem transparent_skipConditional : Transparent skipConditional conditionalLines := by
  refine ⟨beginsLine_of_mem_conditionalLines, ?_⟩
  intro note s s' t line agree
  fun_induction conditionalLines s generalizing s' with
  | case1 s absent => exact skipConditional_congr (transparent_branch.same note line agree)
  | case2 s r found absent =>
    rcases List.mem_append.1 line with first | second
    · exact skipConditional_congr (transparent_branch.same note first agree)
    · obtain ⟨r', found', behind⟩ :=
        behind_else agree found (transparent_skipBody.begins second).length_lt
      have absent' := behind.keyword_absent isWord_if absent
      rw [skipConditional_of_else found absent, skipConditional_of_else found' absent']
      exact transparent_skipBody.same note second behind
  | case3 s r found rest more _ ih =>
    rcases List.mem_append.1 line with first | later
    · exact skipConditional_congr (transparent_branch.same note first agree)
    · have inside := (beginsLine_of_mem_conditionalLines later).length_lt
      have before : t.length < r.length := Nat.lt_of_lt_of_le inside
        ((afterKeyword?_suffix more).trans (skipSpace_suffix r)).length_le
      obtain ⟨r', found', behind⟩ := behind_else agree found before
      obtain ⟨rest', more', onward⟩ := behind.keyword_found isWord_if more inside
      rw [skipConditional_of_elseIf found more, skipConditional_of_elseIf found' more']
      exact ih later onward

/-- The lines that begin in an alternative, from behind its `else`. -/
def alternativeLines (s : List Char) : List (List Char) :=
  match afterKeyword? "if" (skipSpace s) with
  | some r => conditionalLines r
  | none => bodyLines s

theorem transparent_skipAlternative : Transparent skipAlternative alternativeLines := by
  constructor
  · intro s t line
    unfold alternativeLines at line
    split at line
    · next r found =>
      exact (beginsLine_of_mem_conditionalLines line).of_suffix
        ((afterKeyword?_suffix found).trans (skipSpace_suffix s))
    · exact transparent_skipBody.begins line
  · intro note s s' t line agree
    unfold alternativeLines at line
    split at line
    · next r found =>
      obtain ⟨r', found', behind⟩ :=
        agree.keyword_found isWord_if found (beginsLine_of_mem_conditionalLines line).length_lt
      rw [skipAlternative_of_if found, skipAlternative_of_if found']
      exact transparent_skipConditional.same note line behind
    · next absent =>
      have absent' := agree.keyword_absent isWord_if absent
      rw [skipAlternative_of_body absent, skipAlternative_of_body absent']
      exact transparent_skipBody.same note line agree

/-- The lines that begin in the parameters and in the body of a method. -/
def methodLines (s : List Char) : List (List Char) :=
  callLines s ++
    match skipSpace (skipCall s) with
    | '{' :: r => balancedLines '{' '}' 1 none r
    | _ => []

theorem transparent_skipMethod : Transparent skipMethod methodLines := by
  constructor
  · intro s t line
    rcases List.mem_append.1 line with first | second
    · exact transparent_skipCall.begins first
    · split at second
      · next r body =>
        have ahead : '{' :: r <:+ skipCall s := body ▸ skipSpace_suffix (skipCall s)
        exact ((beginsLine_of_mem_balancedLines second).cons '{').of_suffix
          (ahead.trans (skipCall_suffix s))
      · cases second
  · intro note s s' t line agree
    rcases List.mem_append.1 line with first | second
    · rw [skipMethod, skipMethod, transparent_skipCall.same note first agree]
    · split at second
      · next r body =>
        have before := (beginsLine_of_mem_balancedLines second).length_lt
        have long : t.length < (skipCall s).length := by
          have ahead := (skipSpace_suffix (skipCall s)).length_le
          rw [body, List.length_cons] at ahead
          omega
        rcases (skipCall_local agree long).skipSpace with ahead | ⟨short, -⟩
        · rw [body] at ahead
          obtain ⟨r', body', behind⟩ := ahead.behind (List.suffix_refl r) before
          rw [skipMethod_of_brace body, skipMethod_of_brace body']
          rw [skipBalanced_opening (by decide), skipBalanced_opening (by decide)]
          exact (transparent_skipBalanced (by decide) 1 none).same note second behind
        · rw [body, List.length_cons] at short
          omega
      · cases second

/-- The lines that begin in a definition, which is a method if it has any. -/
def definitionLines (s : List Char) : List (List Char) :=
  match s.dropWhile fun c => !endsWords c with
  | '(' :: r => methodLines ('(' :: r)
  | _ => []

theorem transparent_definition : Transparent definition definitionLines := by
  have before : ∀ s : List Char, s.dropWhile (fun c => !endsWords c) <:+ s :=
    fun s => List.dropWhile_suffix _
  constructor
  · intro s t line
    unfold definitionLines at line
    split at line
    · next r words =>
      exact (transparent_skipMethod.begins line).of_suffix (words ▸ before s)
    · cases line
  · intro note s s' t line agree
    obtain ⟨words, ahead⟩ := agree.dropWhile (p := fun c => !endsWords c) (by decide)
    unfold definitionLines at line
    simp only [definition, words]
    generalize s.dropWhile (fun c => !endsWords c) = rest at ahead line ⊢
    generalize s'.dropWhile (fun c => !endsWords c) = rest' at ahead ⊢
    split at line
    · cases ahead with
      | mark h => exact absurd rfl (h.elim (motive := (· ≠ '(')) (by decide))
      | cons _ h =>
        show (none, skipMethod _) = (none, skipMethod _)
        rw [transparent_skipMethod.same note line (.cons '(' h)]
    · cases line

/-! ## Before an `else` -/

/-- The lines that begin in the white space at the start of the text. -/
def spaceLines : List Char → List (List Char)
  | [] => []
  | c :: r =>
    if isLineBreak c then r :: spaceLines r else if isIndent c then spaceLines r else []

/-- Behind an `else` the text goes on so that a reader that comes to the `else` by itself takes it
for the keyword. -/
def startsAlternative (r : List Char) : Bool := r.head?.any fun c => isDelimiter c || c == '{'

/-- The lines that begin between the first body of a conditional and the `else` before `r`. -/
def gapLines (s r : List Char) : List (List Char) :=
  if startsAlternative r then spaceLines (skipBody (skipCall s)) else []

/-- The lines that begin between the bodies of a conditional and the `else` behind each. -/
def elseLines (s : List Char) : List (List Char) :=
  match h : afterKeyword? "else" (skipSpace (skipBody (skipCall s))) with
  | none => []
  | some r =>
    match h' : afterKeyword? "if" (skipSpace r) with
    | none => gapLines s r
    | some rest =>
      have := length_else_if_lt h h'
      gapLines s r ++ elseLines rest
  termination_by s.length

/-- With a comment line before an `else`, skipping ends in front of that line, and what it has left
out is an alternative, which the reader comes to when it reads on. -/
structure StopsBeforeElse (note : CommentLine) (t left left' : List Char) : Prop where
  stops : ∃ blanks c, (∀ d ∈ blanks, isSpace d = true) ∧ isLineBreak c = true ∧
    left' = blanks ++ c :: (note.text ++ t)
  alternative : ∃ r, skipSpace t = "else".toList ++ r ∧ startsAlternative r = true ∧
    left = skipAlternative r

theorem eq_append_of_mem_spaceLines (line : t ∈ spaceLines s) :
    ∃ blanks c, (∀ d ∈ blanks, isSpace d = true) ∧ isLineBreak c = true ∧ s = blanks ++ c :: t := by
  induction s with
  | nil => cases line
  | cons d s ih =>
    have later : isSpace d = true → t ∈ spaceLines s →
        ∃ blanks c, (∀ e ∈ blanks, isSpace e = true) ∧ isLineBreak c = true ∧
          d :: s = blanks ++ c :: t := by
      intro space line
      obtain ⟨blanks, c, spaces, lineBreak, rfl⟩ := ih line
      exact ⟨d :: blanks, c, by simpa [space] using spaces, lineBreak, rfl⟩
    unfold spaceLines at line
    split at line
    · next lineBreak =>
      rcases List.mem_cons.1 line with rfl | line
      · exact ⟨[], d, by simp, lineBreak, rfl⟩
      · exact later (by simp [isSpace, lineBreak]) line
    · split at line
      · next indent => exact later (by simp [isSpace, indent]) line
      · cases line

theorem skipSpace_append_cons {blanks : List Char} (h : ∀ d ∈ blanks, isSpace d = true) {c : Char}
    (lineBreak : isLineBreak c = true) (t : List Char) :
    skipSpace (blanks ++ c :: t) = skipSpace t := by
  rw [skipSpace, List.dropWhile_append_of_pos h,
    List.dropWhile_cons_of_pos (by simp [isSpace, lineBreak]), skipSpace]

theorem eq_append_of_mem_gapLines (line : t ∈ gapLines s r) :
    startsAlternative r = true ∧
      ∃ blanks c, (∀ d ∈ blanks, isSpace d = true) ∧ isLineBreak c = true ∧
        skipBody (skipCall s) = blanks ++ c :: t := by
  unfold gapLines at line
  split at line
  · next starts => exact ⟨starts, eq_append_of_mem_spaceLines line⟩
  · cases line

theorem beginsLine_of_mem_elseLines (line : t ∈ elseLines s) : BeginsLine t s := by
  have gap : ∀ {s r : List Char}, t ∈ gapLines s r → BeginsLine t s := by
    intro s r line
    obtain ⟨-, blanks, c, -, lineBreak, text⟩ := eq_append_of_mem_gapLines line
    refine ⟨c, lineBreak, List.IsSuffix.trans ⟨blanks, text.symm⟩ ?_⟩
    exact (skipBody_suffix _).trans (skipCall_suffix s)
  fun_induction elseLines s with
  | case1 => cases line
  | case2 s r found absent => exact gap line
  | case3 s r found rest more _ ih =>
    rcases List.mem_append.1 line with line | later
    · exact gap line
    · exact (ih later).of_suffix (elseIf_suffix found more)

theorem skipConditional_of_mem_gapLines (note : CommentLine)
    (found : afterKeyword? "else" (skipSpace (skipBody (skipCall s))) = some r)
    (line : t ∈ gapLines s r) (agree : Agree t (note.text ++ t) s s') :
    StopsBeforeElse note t (skipConditional s) (skipConditional s') := by
  obtain ⟨starts, blanks, c, spaces, lineBreak, text⟩ := eq_append_of_mem_gapLines line
  have body : Local (skipBody ∘ skipCall) := skipBody_local.comp skipCall_local skipBody_suffix
  have ahead : Agree t (note.text ++ t) (skipBody (skipCall s)) (skipBody (skipCall s')) := by
    refine body agree ?_
    show t.length < (skipBody (skipCall s)).length
    rw [text, List.length_append, List.length_cons]
    omega
  have text' : skipBody (skipCall s') = blanks ++ c :: (note.text ++ t) :=
    (text ▸ ahead).eq_append (.mark (note.isMark lineBreak t))
  obtain ⟨rest, comment⟩ := note.skipSpace_text t
  have absent' : afterKeyword? "else" (skipSpace (skipBody (skipCall s'))) = none := by
    rw [text', skipSpace_append_cons spaces lineBreak, comment]
    exact afterKeyword?_slash isWord_else rest
  refine ⟨⟨blanks, c, spaces, lineBreak, ?_⟩, r, ?_, starts, ?_⟩
  · rw [skipConditional_of_alone absent', text']
  · rw [text, skipSpace_append_cons spaces lineBreak] at found
    exact eq_append_of_afterKeyword? found
  · rw [skipConditional_eq, found]

theorem skipConditional_of_mem_elseLines (note : CommentLine) (line : t ∈ elseLines s)
    (agree : Agree t (note.text ++ t) s s') :
    StopsBeforeElse note t (skipConditional s) (skipConditional s') := by
  fun_induction elseLines s generalizing s' with
  | case1 => cases line
  | case2 s r found absent => exact skipConditional_of_mem_gapLines note found line agree
  | case3 s r found rest more _ ih =>
    rcases List.mem_append.1 line with line | later
    · exact skipConditional_of_mem_gapLines note found line agree
    · have inside := (beginsLine_of_mem_elseLines later).length_lt
      have before : t.length < r.length := Nat.lt_of_lt_of_le inside
        ((afterKeyword?_suffix more).trans (skipSpace_suffix r)).length_le
      obtain ⟨r', found', behind⟩ := behind_else agree found before
      obtain ⟨rest', more', onward⟩ := behind.keyword_found isWord_if more inside
      rw [skipConditional_of_elseIf found more, skipConditional_of_elseIf found' more']
      exact ih later onward

/-- The lines that begin before an `else` behind an alternative. -/
def laterElseLines (s : List Char) : List (List Char) :=
  match afterKeyword? "if" (skipSpace s) with
  | some r => elseLines r
  | none => []

theorem beginsLine_of_mem_laterElseLines (line : t ∈ laterElseLines s) : BeginsLine t s := by
  unfold laterElseLines at line
  split at line
  · next r found =>
    exact (beginsLine_of_mem_elseLines line).of_suffix
      ((afterKeyword?_suffix found).trans (skipSpace_suffix s))
  · cases line

theorem skipAlternative_of_mem_laterElseLines (note : CommentLine) (line : t ∈ laterElseLines s)
    (agree : Agree t (note.text ++ t) s s') :
    StopsBeforeElse note t (skipAlternative s) (skipAlternative s') := by
  unfold laterElseLines at line
  split at line
  · next r found =>
    obtain ⟨r', found', behind⟩ :=
      agree.keyword_found isWord_if found (beginsLine_of_mem_elseLines line).length_lt
    rw [skipAlternative_of_if found, skipAlternative_of_if found']
    exact skipConditional_of_mem_elseLines note line behind
  · cases line

end BuildScript
