import BuildScript.Comment

/-!
# Statements of a dependencies block

A statement ends at a line break outside brackets, unless a comma ends the line.  Brackets inside
quotes do not count, so that a version range such as `'[2.1,3.0['` stays balanced.  A quote that is
still open at a line break is given up.
-/

namespace BuildScript

open Text

/-- What quote is open after the character. -/
def quoteAfter (quote : Option Char) (c : Char) : Option Char :=
  match quote with
  | some q => if c == q then none else some q
  | none => if isQuote c then some c else none

/-- The character is the content of a literal or one of its quotes. -/
def inLiteral (quote : Option Char) (c : Char) : Bool := quote.isSome || isQuote c

/-- A statement before others, without the blanks around it; a blank one does not count. -/
def consStatement (statement : List Char) (others : List (List Char)) : List (List Char) :=
  match trim statement with
  | [] => others
  | statement => statement :: others

/-- The statements up to the `}` of the block, and the text after it.  `current` is the statement
read so far, `depth` counts the brackets that are open in it. -/
def statements (depth : Nat) (quote : Option Char) (current : String) :
    List Char → List (List Char) × List Char
  | [] => (consStatement current.toList [], [])
  | c :: r =>
    if isLineBreak c then
      have := (margin_suffix r).length_le
      if depth == 0 && (trimEnd current.toList).getLast? != some ',' then
        let (others, rest) := statements 0 none "" (margin r)
        (consStatement current.toList others, rest)
      else statements depth none (current.push '\n') (margin r)
    else if inLiteral quote c then statements depth (quoteAfter quote c) (current.push c) r
    else if c == '(' || c == '[' || c == '{' then
      statements (depth + 1) none (current.push c) r
    else if c == '}' && depth == 0 then (consStatement current.toList [], r)
    else if c == ')' || c == ']' || c == '}' then
      statements (depth - 1) none (current.push c) r
    else statements depth none (current.push c) r
  termination_by s => s.length

/-- The statements of a block from behind its `{`, and the text after its `}`. -/
def blockStatements (s : List Char) : List (List Char) × List Char :=
  statements 0 none "" (margin s)

theorem statements_suffix (depth : Nat) (quote : Option Char) (current : String)
    (s : List Char) : (statements depth quote current s).2 <:+ s := by
  have onward : ∀ {c : Char} {r rest : List Char}, rest <:+ r → rest <:+ c :: r :=
    fun h => h.trans (List.suffix_cons _ _)
  fun_induction statements depth quote current s with
  | case1 => exact List.suffix_refl []
  | case2 _ _ _ c r _ _ _ _ _ result ih =>
    rw [result] at ih
    exact onward (ih.trans (margin_suffix r))
  | case3 _ _ _ c r _ _ _ ih => exact onward (ih.trans (margin_suffix r))
  | case6 => exact List.suffix_cons _ _
  | case4 | case5 | case7 | case8 => exact onward ‹_›

theorem blockStatements_suffix (s : List Char) : (blockStatements s).2 <:+ s :=
  (statements_suffix ..).trans (margin_suffix s)

end BuildScript
