import BuildScript.Text

/-!
# Margins

A comment opens only where a logical line begins: at the start of a text, after a line break and
after the close of another comment.  The margin of a line is its indentation with the comments
that stand there.
-/

namespace BuildScript

/-! ## Characters of a script -/

def isIndent (c : Char) : Bool := c == ' ' || c == '\t'

def isLineBreak (c : Char) : Bool := c == '\n' || c == '\r'

def isSpace (c : Char) : Bool := isIndent c || isLineBreak c

/-- A character that ends a key. -/
def isDelimiter (c : Char) : Bool := isIndent c || c == '='

/-- A character that continues a name. -/
def isNameChar (c : Char) : Bool := Unicode.isAlphanumeric c || c == '_' || c == '$'

theorem eq_of_isIndent {c : Char} (h : isIndent c = true) : c = ' ' ∨ c = '\t' := by
  simpa [isIndent] using h

theorem eq_of_isLineBreak {c : Char} (h : isLineBreak c = true) : c = '\n' ∨ c = '\r' := by
  simpa [isLineBreak] using h

theorem isDelimiter_iff {c : Char} : isDelimiter c = true ↔ isIndent c = true ∨ c = '=' := by
  simp [isDelimiter]

theorem eq_of_isDelimiter {c : Char} (h : isDelimiter c = true) : c = ' ' ∨ c = '\t' ∨ c = '=' := by
  simpa [isDelimiter, isIndent, or_assoc] using h

def skipIndent (s : List Char) : List Char := s.dropWhile isIndent

def skipSpace (s : List Char) : List Char := s.dropWhile isSpace

/-- The text from the next line break on. -/
def skipLine (s : List Char) : List Char := s.dropWhile fun c => !isLineBreak c

/-! ## Comments at the start of a line -/

mutual

/-- The text after the margin of a line.  A line comment leaves its line break, a block comment
leaves what follows its close, and one that stays open leaves nothing. -/
def margin : List Char → List Char
  | '/' :: '/' :: r => skipLine r
  | '/' :: '*' :: r => blockComment r
  | c :: r => if isIndent c then margin r else c :: r
  | [] => []

/-- The text after the margin of a line, from inside a block comment. -/
def blockComment : List Char → List Char
  | '*' :: '/' :: r => margin r
  | _ :: r => blockComment r
  | [] => []

end

theorem margin_cons_of_isIndent {c : Char} (h : isIndent c = true) (r : List Char) :
    margin (c :: r) = margin r := by
  have notSlash : c ≠ '/' := by rintro rfl; simp [isIndent] at h
  rw [margin.eq_3 c r (fun _ e _ => notSlash e) (fun _ e _ => notSlash e), if_pos h]

theorem margin_cons_of_not {c : Char} (h : isIndent c = false) (slash : c ≠ '/') (r : List Char) :
    margin (c :: r) = c :: r := by
  rw [margin.eq_3 c r (fun _ e _ => slash e) (fun _ e _ => slash e), h]
  rfl

theorem skipIndent_suffix (s : List Char) : skipIndent s <:+ s := List.dropWhile_suffix _

theorem skipSpace_suffix (s : List Char) : skipSpace s <:+ s := List.dropWhile_suffix _

theorem skipLine_suffix (s : List Char) : skipLine s <:+ s := List.dropWhile_suffix _

theorem margin_suffix_and_blockComment_suffix :
    (∀ s, margin s <:+ s) ∧ ∀ s, blockComment s <:+ s := by
  have onward : ∀ {c : Char} {r rest : List Char}, rest <:+ r → rest <:+ c :: r :=
    fun h => h.trans (List.suffix_cons _ _)
  apply margin.mutual_induct (fun s => margin s <:+ s) (fun s => blockComment s <:+ s)
  case case1 => intro r; exact onward (onward (skipLine_suffix r))
  case case2 => intro r ih; exact onward (onward ih)
  case case3 =>
    intro c r h₁ h₂ hc ih
    rw [margin.eq_3 c r h₁ h₂, if_pos hc]
    exact onward ih
  case case4 =>
    intro c r h₁ h₂ hc
    exact ⟨[], by rw [List.nil_append, margin.eq_3 c r h₁ h₂, if_neg hc]⟩
  case case5 => exact List.suffix_refl []
  case case6 => intro r ih; exact onward (onward ih)
  case case7 => intro c r h ih; rw [blockComment.eq_2 c r h]; exact onward ih
  case case8 => exact List.suffix_refl []

theorem margin_suffix (s : List Char) : margin s <:+ s := margin_suffix_and_blockComment_suffix.1 s

end BuildScript
