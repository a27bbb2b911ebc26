import BuildScript.Proofs.Comments.Skip

/-!
# Joined lines in skipped text

In a literal of skipped text a backslash takes the next character with it.  Where that is a line
feed, the literal goes on in the next line.  Only there does skipping depend on the way in which the
line breaks are written.
-/

namespace BuildScript

open Text

variable {s r : List Char} {quote : Option Char}

/-! ## Literals -/

/-- The character is a backslash in a literal, and it takes a line feed with it. -/
def takesLineFeed (quote : Option Char) (c : Char) (r : List Char) : Bool :=
  quote.isSome && c == '\\' && r.head? == some '\n'

/-- A literal between the brackets goes on in the next line. -/
def balancedJoins (opening closing : Char) (depth : Nat) (quote : Option Char) : List Char → Bool
  | [] => false
  | c :: r =>
    match h : literalStep? quote c r with
    | some (next, rest) =>
      have := (literalStep?_suffix h).length_le
      takesLineFeed quote c r || balancedJoins opening closing depth next rest
    | none =>
      have := (afterCode_suffix c r).length_le
      if c == opening then balancedJoins opening closing (depth + 1) none r
      else if c == closing then
        if depth ≤ 1 then false else balancedJoins opening closing (depth - 1) none r
      else balancedJoins opening closing depth none (afterCode c r)
  termination_by s => s.length

/-- A literal of the statement goes on in the next line. -/
def statementJoins (depth : Nat) (quote : Option Char) : List Char → Bool
  | [] => false
  | c :: r =>
    match h : literalStep? quote c r with
    | some (next, rest) =>
      have := (literalStep?_suffix h).length_le
      takesLineFeed quote c r || statementJoins depth next rest
    | none =>
      have := (afterCode_suffix c r).length_le
      if depth == 0 && (isLineBreak c || c == '}') then false
      else if c == '{' || c == '(' then statementJoins (depth + 1) none r
      else if c == '}' || c == ')' then statementJoins (depth - 1) none r
      else statementJoins depth none (afterCode c r)
  termination_by s => s.length

/-! ## Constructs -/

def callJoins (s : List Char) : Bool :=
  match skipIndent s with
  | '(' :: r => balancedJoins '(' ')' 0 none ('(' :: r)
  | _ => false

def bodyJoins (s : List Char) : Bool :=
  match skipBlankLines s with
  | '{' :: r => balancedJoins '{' '}' 0 none ('{' :: r)
  | s => statementJoins 0 none s

def branchJoins (s : List Char) : Bool := callJoins s || bodyJoins (skipCall s)

def conditionalJoins (s : List Char) : Bool :=
  match h : afterKeyword? "else" (skipSpace (skipBody (skipCall s))) with
  | none => branchJoins s
  | some r =>
    match h' : afterKeyword? "if" (skipSpace r) with
    | none => branchJoins s || bodyJoins r
    | some rest =>
      have := length_else_if_lt h h'
      branchJoins s || conditionalJoins rest
  termination_by s.length

def alternativeJoins (s : List Char) : Bool :=
  match afterKeyword? "if" (skipSpace s) with
  | some r => conditionalJoins r
  | none => bodyJoins s

def methodJoins (s : List Char) : Bool :=
  callJoins s ||
    match skipSpace (skipCall s) with
    | '{' :: r => balancedJoins '{' '}' 0 none ('{' :: r)
    | _ => false

def definitionJoins (s : List Char) : Bool :=
  match s.dropWhile fun c => !endsWords c with
  | '(' :: r => methodJoins ('(' :: r)
  | _ => false

/-! ## Backslashes

Text without backslashes joins no lines.
-/

theorem eq_backslash_of_takesLineFeed {c : Char} (h : takesLineFeed quote c r = true) :
    c = '\\' := by
  simp only [takesLineFeed, Bool.and_eq_true, beq_iff_eq] at h
  exact h.1.2

theorem mem_of_balancedJoins {opening closing : Char} {depth : Nat}
    (h : balancedJoins opening closing depth quote s = true) : '\\' ∈ s := by
  fun_induction balancedJoins opening closing depth quote s with
  | case1 => cases h
  | case2 _ quote c r next rest taken _ ih =>
    rcases Bool.or_eq_true_iff.1 h with here | later
    · exact eq_backslash_of_takesLineFeed here ▸ List.mem_cons_self
    · exact List.mem_cons_of_mem c ((literalStep?_suffix taken).mem (ih later))
  | case3 _ _ c _ _ _ _ ih => exact List.mem_cons_of_mem c (ih h)
  | case4 => cases h
  | case5 _ _ c _ _ _ _ _ _ ih => exact List.mem_cons_of_mem c (ih h)
  | case6 _ _ c r _ _ _ _ ih => exact List.mem_cons_of_mem c ((afterCode_suffix c r).mem (ih h))

theorem mem_of_statementJoins {depth : Nat} (h : statementJoins depth quote s = true) :
    '\\' ∈ s := by
  fun_induction statementJoins depth quote s with
  | case1 => cases h
  | case2 _ quote c r next rest taken _ ih =>
    rcases Bool.or_eq_true_iff.1 h with here | later
    · exact eq_backslash_of_takesLineFeed here ▸ List.mem_cons_self
    · exact List.mem_cons_of_mem c ((literalStep?_suffix taken).mem (ih later))
  | case3 => cases h
  | case4 _ _ c _ _ _ _ _ ih => exact List.mem_cons_of_mem c (ih h)
  | case5 _ _ c _ _ _ _ _ _ ih => exact List.mem_cons_of_mem c (ih h)
  | case6 _ _ c r _ _ _ _ _ ih => exact List.mem_cons_of_mem c ((afterCode_suffix c r).mem (ih h))

theorem mem_of_callJoins (h : callJoins s = true) : '\\' ∈ s := by
  unfold callJoins at h
  split at h
  · next r opens => exact (skipIndent_suffix s).mem (opens ▸ mem_of_balancedJoins h)
  · cases h

theorem mem_of_bodyJoins (h : bodyJoins s = true) : '\\' ∈ s := by
  unfold bodyJoins at h
  refine (skipBlankLines_suffix s).mem ?_
  split at h
  · next r opens => exact opens ▸ mem_of_balancedJoins h
  · exact mem_of_statementJoins h

theorem mem_of_branchJoins (h : branchJoins s = true) : '\\' ∈ s := by
  rcases Bool.or_eq_true_iff.1 h with call | body
  · exact mem_of_callJoins call
  · exact (skipCall_suffix s).mem (mem_of_bodyJoins body)

theorem mem_of_conditionalJoins (h : conditionalJoins s = true) : '\\' ∈ s := by
  fun_induction conditionalJoins s with
  | case1 => exact mem_of_branchJoins h
  | case2 s r found =>
    rcases Bool.or_eq_true_iff.1 h with branch | body
    · exact mem_of_branchJoins branch
    · exact (else_suffix found).mem (mem_of_bodyJoins body)
  | case3 s r found rest more _ ih =>
    rcases Bool.or_eq_true_iff.1 h with branch | later
    · exact mem_of_branchJoins branch
    · exact (elseIf_suffix found more).mem (ih later)

theorem mem_of_alternativeJoins (h : alternativeJoins s = true) : '\\' ∈ s := by
  unfold alternativeJoins at h
  split at h
  · next r found =>
    exact ((afterKeyword?_suffix found).trans (skipSpace_suffix s)).mem (mem_of_conditionalJoins h)
  · exact mem_of_bodyJoins h

theorem mem_of_methodJoins (h : methodJoins s = true) : '\\' ∈ s := by
  rcases Bool.or_eq_true_iff.1 h with call | body
  · exact mem_of_callJoins call
  · split at body
    · next r opens =>
      exact ((skipSpace_suffix _).trans (skipCall_suffix s)).mem (opens ▸ mem_of_balancedJoins body)
    · cases body

theorem mem_of_definitionJoins (h : definitionJoins s = true) : '\\' ∈ s := by
  have words : (s.dropWhile fun c => !endsWords c) <:+ s := List.dropWhile_suffix _
  unfold definitionJoins at h
  split at h
  · next r opens => exact words.mem (opens ▸ mem_of_methodJoins h)
  · cases h

end BuildScript
