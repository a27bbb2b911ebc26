import BuildScript.Proofs.Locality.Scope
import BuildScript.Proofs.Dependencies.Statements
import BuildScript.Proofs.Comments.Line
import BuildScript.Proofs.Comments.Declarations

/-!
# Comment lines in a dependencies block

A comment line between two statements leaves the statements as they are.  Inside a statement, which
goes on behind a line break in brackets or behind a comma, it leaves line feeds behind the one that
is there, and the statement declares the same if no text that it declares runs over several lines.
-/

namespace BuildScript

open Text Dependencies

variable {s s' t : List Char}

/-! ## Lines -/

/-- The first of the statements declares texts of one line only. -/
def firstIsOneLine : List (List Char) → Bool
  | [] => true
  | statement :: _ => (declarations statement).all Dependency.isOneLine

/-- The lines that begin in a block of dependencies.  One inside a statement counts if the statement
declares texts of one line only. -/
def statementStarts (depth : Nat) (quote : Option Char) (current : String) :
    List Char → List (List Char)
  | [] => []
  | c :: r =>
    if isLineBreak c then
      have := (margin_suffix r).length_le
      if depth == 0 && (trimEnd current.toList).getLast? != some ',' then
        r :: statementStarts 0 none "" (margin r)
      else
        lineIf (firstIsOneLine (statements depth none (current.push '\n') (margin r)).1) r ++
          statementStarts depth none (current.push '\n') (margin r)
    else if inLiteral quote c then
      statementStarts depth (quoteAfter quote c) (current.push c) r
    else if c == '(' || c == '[' || c == '{' then
      statementStarts (depth + 1) none (current.push c) r
    else if c == '}' && depth == 0 then []
    else if c == ')' || c == ']' || c == '}' then
      statementStarts (depth - 1) none (current.push c) r
    else statementStarts depth none (current.push c) r
  termination_by s => s.length

section

variable {depth depth' : Nat} {quote quote' : Option Char} {current : String} {c : Char}

theorem statementStarts_of_ends (comma : (trimEnd current.toList).getLast? ≠ some ',')
    (lineBreak : isLineBreak c = true) (r : List Char) :
    statementStarts 0 quote current (c :: r) = r :: statementStarts 0 none "" (margin r) := by
  rw [statementStarts, if_pos lineBreak, if_pos (by simpa using comma)]

theorem statementStarts_of_goesOn (goesOn : GoesOn depth current)
    (lineBreak : isLineBreak c = true) (r : List Char) :
    statementStarts depth quote current (c :: r) =
      lineIf (firstIsOneLine (statements depth none (current.push '\n') (margin r)).1) r ++
        statementStarts depth none (current.push '\n') (margin r) := by
  rw [statementStarts, if_pos lineBreak, if_neg (goesOn_iff.1 goesOn)]

theorem statementStarts_of_closing (h : statementRole depth quote c = .closing) (r : List Char) :
    statementStarts depth quote current (c :: r) = [] := by
  unfold statementRole at h
  rw [statementStarts]
  repeat' split at h
  all_goals simp_all

theorem statementStarts_of_inside (h : statementRole depth quote c = .inside depth' quote')
    (r : List Char) :
    statementStarts depth quote current (c :: r) =
      statementStarts depth' quote' (current.push c) r := by
  unfold statementRole at h
  rw [statementStarts]
  repeat' split at h
  all_goals simp_all

theorem beginsLine_of_mem_statementStarts (line : t ∈ statementStarts depth quote current s) :
    BeginsLine t s := by
  induction depth, quote, s using statement_induction generalizing current with
  | nil =>
    rw [statementStarts] at line
    cases line
  | lineBreak depth quote c r lineBreak ih =>
    have here : BeginsLine r (c :: r) := ⟨c, lineBreak, List.suffix_refl _⟩
    by_cases goesOn : GoesOn depth current
    · rw [statementStarts_of_goesOn goesOn lineBreak] at line
      rcases List.mem_append.1 line with inside | later
      · exact (mem_lineIf.1 inside).2 ▸ here
      · exact ((ih depth later).of_suffix (margin_suffix r)).cons c
    · obtain ⟨rfl, comma⟩ := not_goesOn_iff.1 goesOn
      rw [statementStarts_of_ends comma lineBreak] at line
      rcases List.mem_cons.1 line with rfl | later
      · exact here
      · exact ((ih 0 later).of_suffix (margin_suffix r)).cons c
  | closing depth quote c r role =>
    rw [statementStarts_of_closing role] at line
    cases line
  | inside depth quote c r depth' quote' role ih =>
    rw [statementStarts_of_inside role] at line
    exact (ih line).cons c

end

/-! ## Statements -/

/-- The dependencies that statements declare, with the text behind their block. -/
def declaredBy (found : List (List Char) × List Char) : List Dependency × List Char :=
  (found.1.flatMap declarations, found.2)

theorem declaredBy_cons (current : List Char) {others others' : List (List Char)}
    {rest rest' : List Char} (h : declaredBy (others', rest') = declaredBy (others, rest)) :
    declaredBy (consStatement current others', rest') =
      declaredBy (consStatement current others, rest) := by
  have split : ∀ others : List (List Char), (consStatement current others).flatMap declarations =
      (consStatement current []).flatMap declarations ++ others.flatMap declarations := by
    intro others
    unfold consStatement
    split <;> simp
  obtain ⟨declared, left⟩ := Prod.ext_iff.1 h
  refine Prod.ext ?_ left
  show (consStatement current others').flatMap declarations =
    (consStatement current others).flatMap declarations
  rw [split others', split others]
  exact congrArg _ declared

/-- A statement with padding in it declares the same if its texts are texts of one line. -/
theorem declaredBy_padded {last last' : List Char} (padded : Padded last last')
    {others : List (List Char)} (oneLine : firstIsOneLine (consStatement last others) = true)
    (rest : List Char) :
    declaredBy (consStatement last' others, rest) = declaredBy (consStatement last others, rest) := by
  have statement := padded.trim
  unfold consStatement at oneLine ⊢
  generalize trim last = kept at statement oneLine ⊢
  generalize trim last' = kept' at statement ⊢
  cases kept with
  | nil =>
    have blank : kept' = [] := statement.eq_of_not_mem List.not_mem_nil
    rw [blank]
  | cons c kept =>
    obtain ⟨kept', rfl⟩ : ∃ u, kept' = c :: u := List.head?_eq_some_iff.1 statement.head?_eq
    have declared := eq_of_padded (declarations_padded statement) oneLine
    refine Prod.ext ?_ rfl
    show declarations (c :: kept') ++ others.flatMap declarations =
      declarations (c :: kept) ++ others.flatMap declarations
    rw [declared]

/-- What is read of a statement already ends in the same place with padding in it, and the other
statements are the same. -/
theorem statements_padded {current current' : String}
    (padded : Padded current.toList current'.toList) (depth : Nat) (quote : Option Char)
    (s : List Char) :
    ∃ last last' others rest, Padded last last' ∧
      statements depth quote current s = (consStatement last others, rest) ∧
      statements depth quote current' s = (consStatement last' others, rest) := by
  have push : ∀ {current current' : String} (c : Char), Padded current.toList current'.toList →
      Padded (current.push c).toList (current'.push c).toList := by
    intro current current' c padded
    rw [String.toList_push, String.toList_push]
    exact padded.append (.refl [c])
  induction depth, quote, s using statement_induction generalizing current current' with
  | nil =>
    rw [statements, statements]
    exact ⟨_, _, [], [], padded, rfl, rfl⟩
  | lineBreak depth quote c r lineBreak ih =>
    have last := padded.trimEnd.getLast?_eq
    by_cases goesOn : GoesOn depth current
    · rw [statements_of_goesOn goesOn lineBreak,
        statements_of_goesOn (goesOn.imp_right last.trans) lineBreak]
      exact ih depth (push '\n' padded)
    · obtain ⟨rfl, comma⟩ := not_goesOn_iff.1 goesOn
      rw [statements_of_ends comma lineBreak, statements_of_ends (last ▸ comma) lineBreak]
      exact ⟨_, _, _, _, padded, rfl, rfl⟩
  | closing depth quote c r role =>
    rw [statements_of_closing role, statements_of_closing role]
    exact ⟨_, _, [], r, padded, rfl, rfl⟩
  | inside depth quote c r depth' quote' role ih =>
    rw [statements_of_inside role, statements_of_inside role]
    exact ih (push c padded)

/-- Inside a statement a comment line leaves line feeds behind the one before it. -/
theorem statements_commentLine (note : CommentLine) {depth : Nat} {current : String}
    (goesOn : GoesOn depth current) (t : List Char) :
    ∃ current' : String, Padded (current.push '\n').toList current'.toList ∧
      statements depth none (current.push '\n') (margin (note.text ++ t)) =
        statements depth none current' (margin t) := by
  refine ⟨_, ?_, (note.margin_text t).symm ▸ statements_goesOn goesOn.push note.lineBreak t⟩
  simp only [String.toList_push, String.toList_append, String.toList_ofList, List.append_assoc]
  refine (Padded.refl current.toList).append ?_
  cases note.lineBreak with
  | lineFeed => exact .again (.refl ['\n'])
  | carriageReturn => exact .again (.refl ['\n'])
  | both => exact .again (.again (.refl ['\n']))

/-- A comment line before a line of a block of dependencies leaves what its statements declare as it
is. -/
theorem declaredBy_statements (note : CommentLine) {depth : Nat} {quote : Option Char}
    {current : String} (line : t ∈ statementStarts depth quote current s)
    (agree : Agree t (note.text ++ t) s s') :
    declaredBy (statements depth quote current s') =
      declaredBy (statements depth quote current s) := by
  induction depth, quote, s using statement_induction generalizing s' current with
  | nil =>
    rw [statementStarts] at line
    cases line
  | lineBreak depth quote c r lineBreak ih =>
    by_cases goesOn : GoesOn depth current
    · have onward := statements_of_goesOn goesOn lineBreak quote
      rw [statementStarts_of_goesOn goesOn lineBreak] at line
      rcases List.mem_append.1 line with here | later
      · obtain ⟨oneLine, rfl⟩ := mem_lineIf.1 here
        obtain ⟨current', padded, same⟩ := statements_commentLine note goesOn t
        rw [agree.at_mark, onward, onward, same]
        obtain ⟨last, last', others, rest, padded, found, found'⟩ :=
          statements_padded padded depth none (margin t)
        rw [found] at oneLine
        rw [found, found']
        exact declaredBy_padded padded oneLine rest
      · have before := (beginsLine_of_mem_statementStarts later).length_lt
        obtain ⟨r', rfl, behind⟩ := agree.behind (margin_suffix r) before
        rw [onward, onward]
        exact ih depth later (margin_local behind before)
    · obtain ⟨rfl, comma⟩ := not_goesOn_iff.1 goesOn
      have last := statements_of_ends comma lineBreak quote
      rw [statementStarts_of_ends comma lineBreak] at line
      rcases List.mem_cons.1 line with rfl | later
      · rw [agree.at_mark, last, last, note.passes statements_blank t]
      · have before := (beginsLine_of_mem_statementStarts later).length_lt
        obtain ⟨r', rfl, behind⟩ := agree.behind (margin_suffix r) before
        rw [last, last]
        exact declaredBy_cons current.toList (ih 0 later (margin_local behind before))
  | closing depth quote c r role =>
    rw [statementStarts_of_closing role] at line
    cases line
  | inside depth quote c r depth' quote' role ih =>
    rw [statementStarts_of_inside role] at line
    obtain ⟨r', rfl, behind⟩ := (beginsLine_of_mem_statementStarts line).behind agree
    rw [statements_of_inside role, statements_of_inside role]
    exact ih line behind

/-! ## Blocks -/

/-- The lines of a block of dependencies, from behind its `{`. -/
def dependencyLines (s : List Char) : List (List Char) := statementStarts 0 none "" (margin s)

theorem transparent_blockDependencies : Transparent blockDependencies dependencyLines := by
  constructor
  · intro s t line
    exact (beginsLine_of_mem_statementStarts line).of_suffix (margin_suffix s)
  · intro note s s' t line agree
    have short := (beginsLine_of_mem_statementStarts line).length_lt
    exact declaredBy_statements note line (margin_local agree short)

end BuildScript
