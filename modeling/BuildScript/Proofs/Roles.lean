import BuildScript.Scope

/-!
# Roles of characters

Which function a step hands the text behind its character to is settled by the state and the
character alone: it is the role of the character.  What holds of all steps is shown role by role.
-/

namespace BuildScript

open Text

/-! ## In a key -/

/-- What a character in a key does. -/
inductive KeyRole where
  | inWord
  | leading
  | setting
  | call
  | conditional
  | alternative
  | definition

def keyRole (kind : ScopeKind) (token : String) (c : Char) : KeyRole :=
  if c == '(' then
    if token = "if" then .conditional else if kind.keepsCalls then .inWord else .call
  else if isDelimiter c then
    if token = "" then .leading
    else if token = "if" then .conditional
    else if token = "else" then .alternative
    else if token = "def" then .definition
    else .setting
  else .inWord

namespace KeyRole

/-- What a definition comes to in a line. -/
def definedStep (st : State) : Option (List Char) × List Char → Step
  | (some name, rest) => .next { st with line := .value (String.ofList name) "" } rest
  | (none, rest) => .next { st with line := .done } rest

def step (st : State) (token : String) (c : Char) (r : List Char) : KeyRole → Step
  | inWord => .next { st with line := .key (token.push c) } r
  | leading => .next st r
  | setting => .next { st with line := .value token "" } r
  | call => callStep st token (c :: r)
  | conditional => .next { st with line := .done } (skipConditional (c :: r))
  | alternative => .next { st with line := .done } (skipAlternative (c :: r))
  | definition => definedStep st (BuildScript.definition (c :: r))

/-- What is known of the text that a character in a key passes over, if it passes over any. -/
def passed {α : Type} (call conditional alternative definition nothing : α) : KeyRole → α
  | .call => call
  | .conditional => conditional
  | .alternative => alternative
  | .definition => definition
  | _ => nothing

/-- What the scope, the key and the character are in the role. -/
def Fits (kind : ScopeKind) (token : String) (c : Char) : KeyRole → Prop
  | inWord => isDelimiter c = false
  | leading => isDelimiter c = true
  | setting => isDelimiter c = true
  | call => c = '(' ∧ token ≠ "if" ∧ kind.keepsCalls = false
  | conditional => c = '(' ∨ isDelimiter c = true
  | alternative => isDelimiter c = true
  | definition => isDelimiter c = true

end KeyRole

theorem keyStep_eq_role (st : State) (token : String) (c : Char) (r : List Char) :
    keyStep st token c r = (keyRole st.kind token c).step st token c r := by
  unfold keyStep keyRole
  repeat' split
  case h_1 name rest same => rw [KeyRole.step, same]; rfl
  case h_2 rest same => rw [KeyRole.step, same]; rfl
  all_goals rfl

theorem keyRole_fits (kind : ScopeKind) (token : String) (c : Char) :
    (keyRole kind token c).Fits kind token c := by
  by_cases paren : c = '('
  · subst paren
    unfold keyRole
    simp only [beq_self_eq_true, if_true]
    repeat' split
    all_goals simp_all [KeyRole.Fits, isDelimiter, isIndent]
  · unfold keyRole
    simp only [beq_iff_eq, paren, if_false]
    repeat' split
    all_goals simp_all [KeyRole.Fits]

/-! ## In a line -/

/-- The key of the block that a `{` opens at a place of a line, if it opens one. -/
def Line.blockKey? : Line → Option String
  | .key token => if token = "else" then none else some token
  | .value name _ => some name
  | .done => none

/-- What a character of a line does. -/
inductive Role where
  | lineBreak
  | closing
  /-- The rest of the line does not count. -/
  | behind
  | alternative
  | opening (key : String)
  | inKey (token : String)
  | inValue (key raw : String)

def State.role (st : State) (c : Char) : Role :=
  if isLineBreak c then .lineBreak
  else if c == '}' then .closing
  else match st.line with
    | .done => .behind
    | .key token =>
      if c == '{' then if token = "else" then .alternative else .opening token else .inKey token
    | .value key raw => if c == '{' then .opening key else .inValue key raw

namespace Role

def step (nesting : Nesting) (st : State) (c : Char) (r : List Char) : Role → Step
  | lineBreak => .next st.newLine (margin r)
  | closing => closeBlock nesting st r
  | behind => .next st r
  | alternative => .next { st with line := .done } (skipAlternative (c :: r))
  | opening key => openBlock nesting st key r
  | inKey token => keyStep st token c r
  | inValue key raw => valueStep st key raw c r

/-- What is known of the text that a character of a line passes over, if it passes over any. -/
def passed {α : Type} (lineBreak closing alternative : α) (opening inKey : String → α)
    (nothing : α) : Role → α
  | .lineBreak => lineBreak
  | .closing => closing
  | .alternative => alternative
  | .opening key => opening key
  | .inKey token => inKey token
  | _ => nothing

/-- What the state and the character are in the role. -/
def Fits (st : State) (c : Char) : Role → Prop
  | lineBreak => isLineBreak c = true
  | closing => c = '}'
  | behind => st.line = .done
  | alternative => c = '{' ∧ st.line = .key "else"
  | opening key => c = '{' ∧ st.line.blockKey? = some key
  | inKey token => st.line = .key token
  | inValue key raw => st.line = .value key raw

end Role

theorem step_eq_role (nesting : Nesting) (st : State) (c : Char) (r : List Char) :
    step nesting st c r = (st.role c).step nesting st c r := by
  unfold step State.role
  split
  · rfl
  · split
    · rfl
    · cases st.line <;> dsimp only <;> repeat' split
      all_goals rfl

theorem role_fits (st : State) (c : Char) : (st.role c).Fits st c := by
  unfold State.role
  split
  · assumption
  · split
    · next closing => exact eq_of_beq closing
    · cases line : st.line <;> dsimp only <;> repeat' split
      all_goals simp_all [Role.Fits, Line.blockKey?]

/-! ## In a block of dependencies -/

/-- What a character of a block of dependencies does where brackets and perhaps a quote are open. -/
inductive StatementRole where
  | lineBreak
  | closing
  /-- The character belongs to its statement; behind it these are open. -/
  | inside (depth : Nat) (quote : Option Char)

def statementRole (depth : Nat) (quote : Option Char) (c : Char) : StatementRole :=
  if isLineBreak c then .lineBreak
  else if inLiteral quote c then .inside depth (quoteAfter quote c)
  else if c == '(' || c == '[' || c == '{' then .inside (depth + 1) none
  else if c == '}' && depth == 0 then .closing
  else if c == ')' || c == ']' || c == '}' then .inside (depth - 1) none
  else .inside depth none

section

variable {depth depth' : Nat} {quote quote' : Option Char} {c : Char}

theorem statementRole_eq_lineBreak_iff :
    statementRole depth quote c = .lineBreak ↔ isLineBreak c = true := by
  unfold statementRole
  repeat' split
  all_goals simp_all

theorem eq_of_statementRole_closing (h : statementRole depth quote c = .closing) :
    c = '}' ∧ depth = 0 := by
  unfold statementRole at h
  repeat' split at h
  all_goals simp_all

theorem statements_of_inside (h : statementRole depth quote c = .inside depth' quote')
    (current : String) (r : List Char) :
    statements depth quote current (c :: r) = statements depth' quote' (current.push c) r := by
  unfold statementRole at h
  rw [statements]
  repeat' split at h
  all_goals simp_all

theorem statements_of_closing (h : statementRole depth quote c = .closing) (current : String)
    (r : List Char) :
    statements depth quote current (c :: r) = (consStatement current.toList [], r) := by
  unfold statementRole at h
  rw [statements]
  repeat' split at h
  all_goals simp_all

/-- A line break ends the statement, or the statement goes on in the next line. -/
theorem statements_lineBreak (depth : Nat) (current : String) (lineBreak : isLineBreak c = true) :
    ∃ (current' : String) (before : List (List Char) → List (List Char)),
      ∀ quote r, statements depth quote current (c :: r) =
        (before (statements depth none current' (margin r)).1,
          (statements depth none current' (margin r)).2) := by
  cases ends : depth == 0 && (trimEnd current.toList).getLast? != some ',' with
  | true =>
    obtain ⟨rfl, -⟩ : depth = 0 ∧ _ := by simpa using ends
    refine ⟨"", consStatement current.toList, ?_⟩
    intro quote r
    rw [statements, if_pos lineBreak, if_pos ends]
  | false =>
    refine ⟨current.push '\n', id, ?_⟩
    intro quote r
    rw [statements, if_pos lineBreak, if_neg (by simp [ends])]
    rfl

/-- Induction along a block of dependencies, by what its characters do. -/
theorem statement_induction {motive : Nat → Option Char → List Char → Prop}
    (nil : ∀ depth quote, motive depth quote [])
    (lineBreak : ∀ depth quote c r, isLineBreak c = true → (∀ depth, motive depth none (margin r)) →
      motive depth quote (c :: r))
    (closing : ∀ depth quote c r, statementRole depth quote c = .closing →
      motive depth quote (c :: r))
    (inside : ∀ depth quote c r depth' quote', statementRole depth quote c = .inside depth' quote' →
      motive depth' quote' r → motive depth quote (c :: r))
    (depth : Nat) (quote : Option Char) (s : List Char) : motive depth quote s := by
  match s with
  | [] => exact nil depth quote
  | c :: r =>
    have shorter := (margin_suffix r).length_le
    cases role : statementRole depth quote c with
    | lineBreak =>
      exact lineBreak depth quote c r (statementRole_eq_lineBreak_iff.1 role) fun depth =>
        statement_induction nil lineBreak closing inside depth none (margin r)
    | closing => exact closing depth quote c r role
    | inside depth' quote' =>
      exact inside depth quote c r depth' quote' role
        (statement_induction nil lineBreak closing inside depth' quote' r)
termination_by s.length

end

end BuildScript
