import BuildScript.Proofs.Locality.Scope
import BuildScript.Proofs.Dependencies.Statements
import BuildScript.Proofs.LineBreaks.Declarations
import BuildScript.Proofs.LineBreaks.Skip

/-!
# Blocks of dependencies with other line breaks

The statements of a block end in the same places with a carriage return before every line feed.  A
statement that goes on behind a line break keeps a line feed for the carriage return and one for the
line feed, so that its line feeds are repeated.
-/

namespace BuildScript

open Text Dependencies

variable {s : List Char} {c : Char}

/-! ## Statements -/

theorem consStatement_doubled (current : List Char) (others : List (List Char)) :
    consStatement (doubled current) (others.map doubled) =
      (consStatement current others).map doubled := by
  unfold consStatement
  rw [show trim (doubled current) = doubled (trim current) from Breaks.twice.trim_write current]
  cases trim current with
  | nil => rfl
  | cons c statement =>
    by_cases lineFeed : c = '\n'
    · subst lineFeed
      rfl
    · rw [doubled_cons lineFeed]
      exact congrArg (· :: others.map doubled) (doubled_cons lineFeed statement).symm

theorem goesOn_doubled_iff {depth : Nat} {current : String} :
    GoesOn depth (Breaks.twice.text current) ↔ GoesOn depth current := by
  unfold GoesOn
  rw [Breaks.toList_text, Breaks.twice.trimEnd_write, Breaks.twice.getLast?_write (by decide)]

theorem push_push_lineFeed (current : String) :
    ((Breaks.twice.text current).push '\n').push '\n' = Breaks.twice.text (current.push '\n') := by
  apply String.ext
  simp only [Breaks.toList_text, String.toList_push, Breaks.write_append, List.append_assoc]
  rfl

/-- Behind the line break that ends a statement the line feed ends an empty line. -/
theorem statements_crlf_of_ends {current : String}
    (comma : (trimEnd current.toList).getLast? ≠ some ',') (quote : Option Char) (r : List Char) :
    statements 0 quote current (crlf ('\n' :: r)) =
      (consStatement current.toList (statements 0 none "" (crlf (margin r))).1,
        (statements 0 none "" (crlf (margin r))).2) := by
  rw [crlf_lineFeed, statements_of_ends comma (by decide) quote, margin_lineFeed_crlf,
    statements_blank (by decide), margin_crlf]

theorem statements_crlf_of_goesOn {depth : Nat} {current : String} (goesOn : GoesOn depth current)
    (quote : Option Char) (r : List Char) :
    statements depth quote current (crlf ('\n' :: r)) =
      statements depth none ((current.push '\n').push '\n') (crlf (margin r)) := by
  rw [crlf_lineFeed, statements_of_goesOn goesOn (by decide) quote, margin_lineFeed_crlf,
    statements_of_goesOn goesOn.push (by decide) none, margin_crlf]

theorem statements_crlf (plain : '\r' ∉ s) (depth : Nat) (quote : Option Char) (current : String) :
    statements depth quote (Breaks.twice.text current) (crlf s) =
      ((statements depth quote current s).1.map doubled,
        crlf (statements depth quote current s).2) := by
  induction depth, quote, s using statement_induction generalizing current with
  | nil depth quote =>
    have done : ∀ current : String, statements depth quote current [] =
        (consStatement current.toList [], []) := fun current => statements.eq_1 ..
    rw [show crlf [] = [] from rfl, done, done, Breaks.toList_text]
    exact Prod.ext (consStatement_doubled current.toList []) rfl
  | lineBreak depth quote c r lineBreak ih =>
    have lineFeed : c = '\n' := (eq_of_isLineBreak lineBreak).resolve_right (by
      rintro rfl
      exact plain List.mem_cons_self)
    subst lineFeed
    have tail : '\r' ∉ margin r := fun found =>
      plain (List.mem_cons_of_mem _ ((margin_suffix r).mem found))
    by_cases goesOn : GoesOn depth current
    · rw [statements_crlf_of_goesOn (goesOn_doubled_iff.2 goesOn), push_push_lineFeed,
        statements_of_goesOn goesOn lineBreak]
      exact ih depth tail (current.push '\n')
    · obtain ⟨rfl, comma⟩ := not_goesOn_iff.1 goesOn
      have comma' := (not_goesOn_iff.1 (goesOn_doubled_iff.not.2 goesOn)).2
      have behind := ih 0 tail ""
      rw [Breaks.text_empty] at behind
      rw [statements_crlf_of_ends comma', behind, Breaks.toList_text,
        statements_of_ends comma lineBreak]
      exact Prod.ext (consStatement_doubled current.toList _) rfl
  | closing depth quote c r role =>
    obtain ⟨rfl, -⟩ := eq_of_statementRole_closing role
    rw [crlf_cons (by decide), statements_of_closing role, statements_of_closing role,
      Breaks.toList_text]
    exact Prod.ext (consStatement_doubled current.toList []) rfl
  | inside depth quote c r depth' quote' role ih =>
    have inLine : c ≠ '\n' := by
      rintro rfl
      cases role
    rw [crlf_cons inLine, statements_of_inside role, statements_of_inside role,
      ← Breaks.twice.text_push current inLine]
    exact ih (fun found => plain (List.mem_cons_of_mem _ found)) (current.push c)

/-! ## Blocks -/

theorem blockDependencies_crlf (plain : '\r' ∉ s) :
    blockDependencies (crlf s) =
      ((blockDependencies s).1.map Dependency.doubled, crlf (blockDependencies s).2) := by
  have found := statements_crlf (fun found => plain ((margin_suffix s).mem found)) 0 none ""
  rw [Breaks.text_empty] at found
  have declared : ∀ statements : List (List Char), (statements.map doubled).flatMap declarations =
      (statements.flatMap declarations).map Dependency.doubled := by
    intro statements
    rw [List.flatMap_map, List.map_flatMap]
    exact congrArg (fun f => statements.flatMap f) (funext declarations_doubled)
  simp only [blockDependencies, blockStatements, margin_crlf, found, declared]

end BuildScript
