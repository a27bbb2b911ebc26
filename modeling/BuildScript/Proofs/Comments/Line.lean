import BuildScript.Proofs.Margin
import BuildScript.Proofs.Text
import BuildScript.Proofs.Grammar.Syntax
import BuildScript.Proofs.Locality.Skip

/-!
# Comment lines

A comment line is blank but for one comment.  A scan that goes on at the margin of the next line
behind every line break does not see a comment line, wherever it begins a line.
-/

namespace BuildScript

open Grammar (Indent CommentText CommentBody LineBreak)

/-- A whole line with a comment on it and nothing else. -/
inductive CommentLine where
  | line (indent : Indent) (text : CommentText) (lineBreak : LineBreak)
  | block (indent : Indent) (body : CommentBody) (behind : Indent) (lineBreak : LineBreak)

namespace CommentLine

def text : CommentLine → List Char
  | line indent text lineBreak => indent.1 ++ '/' :: '/' :: (text.1 ++ lineBreak.text)
  | block indent body behind lineBreak =>
    indent.1 ++ '/' :: '*' :: (body.chars ++ '*' :: '/' :: (behind.1 ++ lineBreak.text))

def lineBreak : CommentLine → LineBreak
  | line _ _ lineBreak => lineBreak
  | block _ _ _ lineBreak => lineBreak

end CommentLine

theorem head?_lineBreak (lineBreak : LineBreak) (t : List Char) :
    ∀ c ∈ (lineBreak.text ++ t).head?, isLineBreak c = true := by
  cases lineBreak with
  | lineFeed => exact forall_mem_head? (by decide) t
  | carriageReturn => exact forall_mem_head? (by decide) t
  | both => exact forall_mem_head? (by decide) ('\n' :: t)

variable (note : CommentLine) {t : List Char}

/-- The margin of a comment line leaves its line break. -/
theorem CommentLine.margin_text (t : List Char) :
    margin (note.text ++ t) = note.lineBreak.text ++ t := by
  cases note with
  | line indent text lineBreak =>
    have inLine : ∀ c ∈ text.1, isLineBreak c = false := fun c hc => by simpa using text.2 c hc
    simp only [CommentLine.text, CommentLine.lineBreak, List.append_assoc, List.cons_append]
    rw [margin_append_of_isIndent indent.2, margin_lineComment inLine (head?_lineBreak lineBreak t)]
  | block indent body behind lineBreak =>
    simp only [CommentLine.text, CommentLine.lineBreak, List.append_assoc, List.cons_append]
    rw [margin_append_of_isIndent indent.2, margin_blockComment body.unclosed,
      margin_append_of_isIndent behind.2]
    cases lineBreak with
    | lineFeed => exact margin_lineBreak (by decide) t
    | carriageReturn => exact margin_lineBreak (by decide) t
    | both => exact margin_lineBreak (by decide) ('\n' :: t)

/-- A look across white space stops at the comment. -/
theorem CommentLine.skipSpace_text (t : List Char) :
    ∃ rest, skipSpace (note.text ++ t) = '/' :: rest := by
  have start : ∀ (indent : Indent) (rest : List Char),
      skipSpace (indent.1 ++ '/' :: rest) = '/' :: rest := by
    intro indent rest
    have spaces : ∀ c ∈ indent.1, isSpace c = true := fun c hc => by simp [isSpace, indent.2 c hc]
    rw [skipSpace, List.dropWhile_append_of_pos spaces]
    rfl
  cases note with
  | line indent text lineBreak =>
    simp only [CommentLine.text, List.append_assoc, List.cons_append]
    exact ⟨_, start indent _⟩
  | block indent body behind lineBreak =>
    simp only [CommentLine.text, List.append_assoc, List.cons_append]
    exact ⟨_, start indent _⟩

theorem CommentLine.isMark {c : Char} (h : isLineBreak c = true) (t : List Char) :
    IsMark (note.text ++ t) c :=
  ⟨.inl h, fun _ => note.skipSpace_text t⟩

/-- Behind a line break, what goes on at the margin of the next line passes over a comment line. -/
theorem CommentLine.passes {α : Type} {f : List Char → α}
    (h : ∀ {c : Char}, isLineBreak c = true → ∀ r, f (c :: r) = f (margin r)) (t : List Char) :
    f (margin (note.text ++ t)) = f (margin t) := by
  rw [note.margin_text t]
  cases note.lineBreak with
  | lineFeed => exact h (by decide) t
  | carriageReturn => exact h (by decide) t
  | both =>
    calc f ('\r' :: '\n' :: t) = f (margin ('\n' :: t)) := h (by decide) _
      _ = f ('\n' :: t) := congrArg f (margin_lineBreak (by decide) t)
      _ = f (margin t) := h (by decide) t

/-! ## Scans that do not see comment lines -/

/-- The text is what follows a line break of the other one. -/
def BeginsLine (t s : List Char) : Prop := ∃ c, isLineBreak c = true ∧ c :: t <:+ s

theorem BeginsLine.of_suffix {s u : List Char} (h : BeginsLine t s) (suffix : s <:+ u) :
    BeginsLine t u := by
  obtain ⟨c, lineBreak, behind⟩ := h
  exact ⟨c, lineBreak, behind.trans suffix⟩

theorem BeginsLine.cons {s : List Char} (h : BeginsLine t s) (c : Char) : BeginsLine t (c :: s) :=
  h.of_suffix (List.suffix_cons c s)

theorem BeginsLine.length_lt {s : List Char} (h : BeginsLine t s) : t.length < s.length := by
  obtain ⟨c, -, behind⟩ := h
  exact behind.length_le

theorem BeginsLine.suffix {s : List Char} (h : BeginsLine t s) : t <:+ s := by
  obtain ⟨c, -, behind⟩ := h
  exact (List.suffix_cons c t).trans behind

/-- Texts that agree up to a line begin with the same character before it. -/
theorem BeginsLine.behind {u r s' : List Char} {c : Char} (h : BeginsLine t r)
    (agree : Agree t u (c :: r) s') : ∃ r', s' = c :: r' ∧ Agree t u r r' :=
  agree.behind (List.suffix_refl r) h.length_lt

/-- The line that begins here, if one does. -/
def lineIf (begins : Bool) (r : List Char) : List (List Char) := if begins then [r] else []

theorem mem_lineIf {begins : Bool} {r : List Char} : t ∈ lineIf begins r ↔ begins = true ∧ t = r := by
  unfold lineIf
  split <;> simp_all

/-- What the function gives is the same if a comment line comes before one of the lines of its
text. -/
structure Transparent {α : Type} (f : List Char → α)
    (lines : List Char → List (List Char)) : Prop where
  begins : ∀ {s t : List Char}, t ∈ lines s → BeginsLine t s
  same : ∀ (note : CommentLine) {s s' t : List Char}, t ∈ lines s →
    Agree t (note.text ++ t) s s' → f s' = f s

/-- One scan after another, each with its lines. -/
theorem Transparent.comp {α : Type} {f : List Char → α} {g : List Char → List Char}
    {lines earlier : List Char → List (List Char)} (hf : Transparent f lines)
    (hg : Transparent g earlier) (local_ : Local g) (suffix : ∀ s, g s <:+ s) :
    Transparent (f ∘ g) fun s => earlier s ++ lines (g s) := by
  constructor
  · intro s t line
    rcases List.mem_append.1 line with first | second
    · exact hg.begins first
    · exact (hf.begins second).of_suffix (suffix s)
  · intro note s s' t line agree
    rcases List.mem_append.1 line with first | second
    · exact congrArg f (hg.same note first agree)
    · exact hf.same note second (local_ agree (hf.begins second).length_lt)

end BuildScript
