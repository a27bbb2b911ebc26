import BuildScript.Proofs.Margin
import BuildScript.Proofs.Dependencies.Coordinates

/-!
# Line breaks in a dependencies block

Behind a line break a statement ends or goes on.  Where it goes on, the line break leaves a line feed
for each of its characters.
-/

namespace BuildScript.Dependencies

open Text Grammar Unicode

theorem trimEnd_push {s : String} {c : Char} (blank : isBlank c = true) :
    trimEnd (s.push c).toList = trimEnd s.toList := by
  rw [String.toList_push, trimEnd_concat blank]

/-- A statement goes on behind a line break inside brackets and behind a comma. -/
def GoesOn (depth : Nat) (current : String) : Prop :=
  depth ≠ 0 ∨ (trimEnd current.toList).getLast? = some ','

theorem GoesOn.push {depth : Nat} {current : String} (h : GoesOn depth current) :
    GoesOn depth (current.push '\n') := by
  unfold GoesOn
  rw [trimEnd_push (by decide)]
  exact h

theorem goesOn_iff {depth : Nat} {current : String} :
    GoesOn depth current ↔
      ¬ (depth == 0 && (trimEnd current.toList).getLast? != some ',') = true := by
  simp [GoesOn, Decidable.imp_iff_not_or]

theorem not_goesOn_iff {depth : Nat} {current : String} :
    ¬ GoesOn depth current ↔ depth = 0 ∧ (trimEnd current.toList).getLast? ≠ some ',' := by
  simp [GoesOn]

theorem statements_of_goesOn {depth : Nat} {current : String} (h : GoesOn depth current) {c : Char}
    (lineBreak : isLineBreak c = true) (quote : Option Char) (r : List Char) :
    statements depth quote current (c :: r) =
      statements depth none (current.push '\n') (margin r) := by
  rw [statements, if_pos lineBreak, if_neg (goesOn_iff.1 h)]

theorem statements_goesOn {depth : Nat} {current : String} (h : GoesOn depth current)
    (lineBreak : LineBreak) (s : List Char) :
    statements depth none current (lineBreak.text ++ s) =
      statements depth none (current ++ String.ofList (keptBreak lineBreak)) (margin s) := by
  have one : ∀ current : String, current ++ String.ofList ['\n'] = current.push '\n' := by
    intro current
    apply String.ext
    simp
  cases lineBreak with
  | lineFeed => rw [LineBreak.text, keptBreak, List.singleton_append, one,
      statements_of_goesOn h (by decide) none]
  | carriageReturn => rw [LineBreak.text, keptBreak, List.singleton_append, one,
      statements_of_goesOn h (by decide) none]
  | both =>
    rw [LineBreak.text, keptBreak, List.cons_append, List.singleton_append,
      statements_of_goesOn h (by decide) none, margin_lineBreak (by decide),
      statements_of_goesOn h.push (by decide) none]
    congr 1
    apply String.ext
    simp

theorem statements_of_ends {current : String}
    (h : (trimEnd current.toList).getLast? ≠ some ',') {c : Char} (lineBreak : isLineBreak c = true)
    (quote : Option Char) (r : List Char) :
    statements 0 quote current (c :: r) =
      (consStatement current.toList (statements 0 none "" (margin r)).1,
        (statements 0 none "" (margin r)).2) := by
  rw [statements, if_pos lineBreak, if_pos (by simpa using h)]

/-- A blank line ends nothing. -/
theorem statements_blank {c : Char} (lineBreak : isLineBreak c = true) (r : List Char) :
    statements 0 none "" (c :: r) = statements 0 none "" (margin r) :=
  statements_of_ends (by decide) lineBreak none r

/-- Outside brackets, a line break that stands behind no comma ends the statement. -/
theorem statements_ends {current : String} (h : (trimEnd current.toList).getLast? ≠ some ',')
    (lineBreak : LineBreak) (s : List Char) :
    statements 0 none current (lineBreak.text ++ s) =
      (consStatement current.toList (statements 0 none "" (margin s)).1,
        (statements 0 none "" (margin s)).2) := by
  cases lineBreak with
  | lineFeed => exact statements_of_ends h (by decide) none s
  | carriageReturn => exact statements_of_ends h (by decide) none s
  | both =>
    rw [LineBreak.text, List.cons_append, List.singleton_append,
      statements_of_ends h (by decide) none, margin_lineBreak (by decide),
      statements_blank (by decide)]

/-! ## Brackets -/

theorem statements_opening {c : Char} (h : c = '(' ∨ c = '[' ∨ c = '{') (depth : Nat)
    (current : String) (r : List Char) :
    statements depth none current (c :: r) = statements (depth + 1) none (current.push c) r := by
  rcases h with rfl | rfl | rfl <;> exact statements_of_inside rfl current r

theorem statements_closing {c : Char} (h : c = ')' ∨ c = ']' ∨ c = '}') (depth : Nat)
    (current : String) (r : List Char) :
    statements (depth + 1) none current (c :: r) = statements depth none (current.push c) r := by
  rcases h with rfl | rfl | rfl <;> exact statements_of_inside rfl current r

end BuildScript.Dependencies
