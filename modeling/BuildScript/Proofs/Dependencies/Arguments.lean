import BuildScript.Dependency.Declaration
import BuildScript.Proofs.Reading
import BuildScript.Proofs.Text

/-!
# Texts of complete literals

A statement is scanned four times: for its end, for its block, for the parentheses around its
notation and for the commas in it.  Each scanner has its own idea of which characters matter, and
all of them pass over a literal in the same way, whatever the literal holds.
-/

namespace BuildScript.Dependencies

open Text Unicode

/-! ## Flat texts -/

/-- Characters of a class with literals between them, each of which is closed on its line. -/
inductive Flat (isMember : Char → Bool) : List Char → Prop
  | nil : Flat isMember []
  | cons {c : Char} {s : List Char} (member : isMember c = true) (rest : Flat isMember s) :
      Flat isMember (c :: s)
  | literal {q : Char} {content s : List Char} (quote : isQuote q = true)
      (inside : ∀ c ∈ content, c ≠ q ∧ isLineBreak c = false) (rest : Flat isMember s) :
      Flat isMember (q :: (content ++ q :: s))

variable {isMember : Char → Bool} {s t : List Char}

theorem Flat.append (h : Flat isMember s) (h' : Flat isMember t) : Flat isMember (s ++ t) := by
  induction h with
  | nil => exact h'
  | cons member _ ih => exact .cons member ih
  | literal quote inside _ ih =>
    rw [List.cons_append, List.append_assoc, List.cons_append]
    exact .literal quote inside ih

theorem Flat.flatMap {α : Type} {text : α → List Char} {list : List α}
    (h : ∀ x ∈ list, Flat isMember (text x)) : Flat isMember (list.flatMap text) := by
  induction list with
  | nil => exact .nil
  | cons x list ih => exact (h x (by simp)).append (ih fun y hy => h y (by simp [hy]))

theorem flat_of_forall (h : ∀ c ∈ s, isMember c = true) : Flat isMember s := by
  induction s with
  | nil => exact .nil
  | cons c s ih => exact .cons (h c (by simp)) (ih fun d hd => h d (by simp [hd]))

theorem flat_literal {q : Char} {content : List Char} (quote : isQuote q = true)
    (inside : ∀ c ∈ content, c ≠ q ∧ isLineBreak c = false) :
    Flat isMember (q :: (content ++ [q])) :=
  .literal quote inside .nil

theorem Flat.mono {isOther : Char → Bool} (h : Flat isMember s)
    (imp : ∀ c, isMember c = true → isOther c = true) : Flat isOther s := by
  induction h with
  | nil => exact .nil
  | cons member _ ih => exact .cons (imp _ member) ih
  | literal quote inside _ ih => exact .literal quote inside ih

/-- The scanner handles every character of a class, and every character of a literal, in one and the
same way and goes on behind it. -/
structure PassesOver {α : Type} (isMember : Char → Bool) (scan : Option Char → List Char → α)
    (pass : Char → α → α) : Prop where
  outside : ∀ {c}, isMember c = true → ∀ r, scan none (c :: r) = pass c (scan none r)
  inside : ∀ {quote c}, inLiteral quote c = true → isLineBreak c = false →
    ∀ r, scan quote (c :: r) = pass c (scan (quoteAfter quote c) r)

section PassesOver

variable {α : Type} {scan : Option Char → List Char → α} {pass : Char → α → α}

theorem isLineBreak_eq_false_of_isQuote {c : Char} (h : isQuote c = true) :
    isLineBreak c = false := by
  rcases eq_of_isQuote h with rfl | rfl <;> decide

theorem PassesOver.content (h : PassesOver isMember scan pass) {q : Char} (quote : isQuote q = true)
    {content : List Char} (inside : ∀ c ∈ content, c ≠ q ∧ isLineBreak c = false)
    (r : List Char) :
    scan (some q) (content ++ q :: r) = (content ++ [q]).foldr pass (scan none r) := by
  induction content with
  | nil =>
    have closes : quoteAfter (some q) q = none := by simp [quoteAfter]
    rw [List.nil_append, h.inside rfl (isLineBreak_eq_false_of_isQuote quote), closes]
    rfl
  | cons c content ih =>
    obtain ⟨other, sameLine⟩ := inside c (by simp)
    have stays : quoteAfter (some q) c = some q := by simp [quoteAfter, other]
    rw [List.cons_append, h.inside rfl sameLine, stays, ih fun d hd => inside d (by simp [hd])]
    rfl

/-- A scanner passes over a flat text character by character. -/
theorem PassesOver.flat (h : PassesOver isMember scan pass) (flat : Flat isMember s)
    (r : List Char) : scan none (s ++ r) = s.foldr pass (scan none r) := by
  induction flat with
  | nil => rfl
  | cons member _ ih =>
    rw [List.cons_append, h.outside member, ih]
    rfl
  | @literal q content s quote inside _ ih =>
    have opens : quoteAfter none q = some q := by simp [quoteAfter, quote]
    rw [List.cons_append, h.inside (by simp [inLiteral, quote])
      (isLineBreak_eq_false_of_isQuote quote), opens, List.append_assoc, List.cons_append,
      h.content quote inside, ih, List.foldr_cons, List.foldr_append, List.foldr_append]
    rfl

end PassesOver

/-! ## The four scanners -/

def isBracket (c : Char) : Bool := ['(', ')', '[', ']', '{', '}'].contains c

/-- Outside literals, neither a quote nor a bracket. -/
def isPlain (c : Char) : Bool := !(isQuote c || isBracket c)

/-- A plain character that stays on its line. -/
def inLine (c : Char) : Bool := isPlain c && !isLineBreak c

/-- A plain character that ends no argument. -/
def inArgument (c : Char) : Bool := isPlain c && c != ','

theorem isPlain_iff {c : Char} :
    isPlain c = true ↔
      isQuote c = false ∧ c ≠ '(' ∧ c ≠ ')' ∧ c ≠ '[' ∧ c ≠ ']' ∧ c ≠ '{' ∧ c ≠ '}' := by
  simp [isPlain, isBracket]

theorem isPlain_of_inArgument {c : Char} (h : inArgument c = true) : isPlain c = true :=
  (Bool.and_eq_true_iff.1 h).1

theorem isPlain_of_inLine {c : Char} (h : inLine c = true) : isPlain c = true :=
  (Bool.and_eq_true_iff.1 h).1

theorem inLine_of_inArgument {c : Char} (h : inArgument c = true) (notBlank : isBlank c = false) :
    inLine c = true := by
  have sameLine : isLineBreak c = false := by
    cases same : isLineBreak c with
    | false => rfl
    | true => rw [isBlank_of_isLineBreak same] at notBlank; cases notBlank
  simp [inLine, isPlain_of_inArgument h, sameLine]

theorem inArgument_of_isIndent {c : Char} (h : isIndent c = true) : inArgument c = true := by
  rcases eq_of_isIndent h with rfl | rfl <;> decide

theorem inLine_of_isIndent {c : Char} (h : isIndent c = true) : inLine c = true := by
  rcases eq_of_isIndent h with rfl | rfl <;> decide

theorem statements_passesOver (depth : Nat) :
    PassesOver inLine (fun quote s current => statements depth quote current s)
      (fun c others current => others (current.push c)) where
  outside := by
    intro c member r
    obtain ⟨plain, sameLine⟩ : isPlain c = true ∧ isLineBreak c = false := by
      simpa [inLine] using member
    obtain ⟨quote, brackets⟩ := isPlain_iff.1 plain
    funext current
    rw [statements]
    simp [sameLine, inLiteral, quote, brackets]
  inside := by
    intro quote c literal sameLine r
    funext current
    rw [statements]
    simp [sameLine, literal]

/-- The characters of a flat text are kept, and no statement ends in it. -/
theorem statements_flat (h : Flat inLine s) (depth : Nat) (current : String) (r : List Char) :
    statements depth none current (s ++ r) =
      statements depth none (current ++ String.ofList s) r := by
  have kept : ∀ (s : List Char) (others : String → List (List Char) × List Char) (current : String),
      s.foldr (fun c others current => others (current.push c)) others current =
        others (current ++ String.ofList s) := by
    intro s others
    induction s with
    | nil => simp
    | cons c s ih => simp [ih, push_append_ofList]
  exact (congrFun ((statements_passesOver depth).flat h r) current).trans (kept s _ current)

theorem splitBlock_passesOver (depth : Nat) :
    PassesOver isPlain (splitBlock depth) (fun c parts => (c :: parts.1, parts.2)) where
  outside := by
    intro c member r
    obtain ⟨quote, brackets⟩ := isPlain_iff.1 member
    simp [splitBlock, inLiteral, quoteAfter, quote, brackets]
  inside := by
    intro quote c literal _ r
    simp [splitBlock, literal]

/-- A flat text holds no block. -/
theorem splitBlock_flat (h : Flat isPlain s) (depth : Nat) (r : List Char) :
    splitBlock depth none (s ++ r) =
      (s ++ (splitBlock depth none r).1, (splitBlock depth none r).2) := by
  rw [(splitBlock_passesOver depth).flat h]
  clear h
  induction s with
  | nil => rfl
  | cons c s ih => rw [List.foldr_cons, ih]; rfl

theorem closesAtEnd_passesOver (depth : Nat) :
    PassesOver isPlain (closesAtEnd depth) (fun _ closes => closes) where
  outside := by
    intro c member r
    obtain ⟨quote, brackets⟩ := isPlain_iff.1 member
    simp [closesAtEnd, inLiteral, quote, brackets]
  inside := by
    intro quote c literal _ r
    simp [closesAtEnd, literal]

theorem closesAtEnd_flat (h : Flat isPlain s) (depth : Nat) (r : List Char) :
    closesAtEnd depth none (s ++ r) = closesAtEnd depth none r := by
  rw [(closesAtEnd_passesOver depth).flat h]
  clear h
  induction s with
  | nil => rfl
  | cons c s ih => rw [List.foldr_cons, ih]

/-- A character before the first of several pieces. -/
def prependToFirst (c : Char) : List (List Char) → List (List Char)
  | [] => [[c]]
  | piece :: pieces => (c :: piece) :: pieces

theorem argumentPieces_passesOver (depth : Nat) :
    PassesOver inArgument (argumentPieces depth) prependToFirst where
  outside := by
    intro c member r
    obtain ⟨plain, comma⟩ : isPlain c = true ∧ c ≠ ',' := by simpa [inArgument] using member
    obtain ⟨quote, brackets⟩ := isPlain_iff.1 plain
    simp [argumentPieces, inLiteral, quoteAfter, quote, brackets, comma]
    rfl
  inside := by
    intro quote c literal _ r
    simp only [argumentPieces, literal]
    rfl

theorem foldr_prependToFirst (s piece : List Char) (pieces : List (List Char)) :
    s.foldr prependToFirst (piece :: pieces) = (s ++ piece) :: pieces := by
  induction s with
  | nil => rfl
  | cons c s ih => rw [List.foldr_cons, ih]; rfl

theorem argumentPieces_flat (h : Flat inArgument s) {depth : Nat} {r piece : List Char}
    {pieces : List (List Char)} (behind : argumentPieces depth none r = piece :: pieces) :
    argumentPieces depth none (s ++ r) = (s ++ piece) :: pieces := by
  rw [(argumentPieces_passesOver depth).flat h, behind, foldr_prependToFirst]

/-! ## Arguments -/

/-- Flat arguments with commas between them are taken apart at these commas. -/
theorem argumentPieces_joined {pieces : List (List Char)} (nonempty : pieces ≠ [])
    (flat : ∀ piece ∈ pieces, Flat inArgument piece) :
    argumentPieces 0 none (joined [','] pieces) = pieces := by
  induction pieces with
  | nil => exact absurd rfl nonempty
  | cons piece pieces ih =>
    have here := flat piece (by simp)
    cases pieces with
    | nil =>
      have alone := argumentPieces_flat here (show argumentPieces 0 none [] = [[]] from rfl)
      simpa [joined] using alone
    | cons next others =>
      have behind := ih (by simp) fun piece member => flat piece (by simp [member])
      have comma : argumentPieces 0 none (',' :: joined [','] (next :: others)) =
          [] :: next :: others := by
        rw [argumentPieces, behind]
        rfl
      rw [joined_cons _ _ (by simp), List.append_assoc, List.singleton_append,
        argumentPieces_flat here comma, List.append_nil]

theorem splitArguments_joined {pieces : List (List Char)} (nonempty : pieces ≠ [])
    (flat : ∀ piece ∈ pieces, Flat inArgument piece)
    (notBlank : allBlank (joined [','] pieces) = false) :
    splitArguments (joined [','] pieces) = pieces.map trim := by
  rw [splitArguments, notBlank, argumentPieces_joined nonempty flat]
  rfl

/-- Parentheses around a flat text are its own. -/
theorem stripParentheses_flat (h : Flat isPlain s) :
    stripParentheses ('(' :: (s ++ [')'])) = s := by
  have closes : closesAtEnd 1 none (s ++ [')']) = true := by
    rw [closesAtEnd_flat h]
    rfl
  rw [stripParentheses, if_pos closes, List.dropLast_concat]

theorem stripParentheses_of_ne {c : Char} (h : c ≠ '(') (s : List Char) :
    stripParentheses (c :: s) = c :: s := by
  unfold stripParentheses
  split
  · next same => exact absurd (List.cons.inj same).1 h
  · rfl

end BuildScript.Dependencies
