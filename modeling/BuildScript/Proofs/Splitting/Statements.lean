import BuildScript.Proofs.Comments.Line
import BuildScript.Proofs.Comments.Opened
import BuildScript.Proofs.Dependencies.Statements
import BuildScript.Proofs.Splitting.Enclosure

/-!
# Splitting into statements

The body of a dependencies block ends at the first `}` that is met where nothing is open.  Its
statements hold every character of a body without comments, in the order in which it is written, and
lose nothing but blanks.
-/

namespace BuildScript.Splitting

open Text Unicode Dependencies

variable {e : Enclosure} {c : Char} {s body rest : List Char}

/-! ## The body of a block -/

/-- A text from a place inside a block on is cut into the rest of the body of the block and what is
behind its `}`.  Without such a `}` all of it belongs to the body. -/
structure Cuts (e : Enclosure) (s body rest : List Char) : Prop where
  inner : NoneOutside Enclosure.afterInLines '}' e body
  ends : s = body ++ '}' :: rest ∧ body.foldl Enclosure.afterInLines e = .outside ∨
    s = body ∧ rest = []

theorem cuts_nil_iff : Cuts e [] body rest ↔ body = [] ∧ rest = [] := by
  constructor
  · rintro ⟨-, ⟨whole, -⟩ | ⟨rfl, rfl⟩⟩
    · exact absurd whole.symm (List.append_ne_nil_of_right_ne_nil body (List.cons_ne_nil _ rest))
    · exact ⟨rfl, rfl⟩
  · rintro ⟨rfl, rfl⟩
    exact ⟨noneOutside_nil, .inr ⟨rfl, rfl⟩⟩

theorem cuts_closed_iff : Cuts .outside ('}' :: s) body rest ↔ body = [] ∧ rest = s := by
  constructor
  · rintro ⟨inner, ends⟩
    cases body with
    | nil =>
      rcases ends with ⟨whole, -⟩ | ⟨whole, -⟩
      · exact ⟨rfl, (List.cons.inj whole).2.symm⟩
      · cases whole
    | cons c body =>
      have first : '}' = c := by
        rcases ends with ⟨whole, -⟩ | ⟨whole, -⟩ <;> exact (List.cons.inj whole).1
      exact absurd ⟨first.symm, rfl⟩ (noneOutside_cons_iff.1 inner).1
  · rintro ⟨rfl, rfl⟩
    exact ⟨noneOutside_nil, .inl ⟨rfl, rfl⟩⟩

/-- Every other character belongs to the body. -/
theorem cuts_inside_iff (inside : ¬ (c = '}' ∧ e = .outside)) :
    Cuts e (c :: s) body rest ↔
      ∃ behind, body = c :: behind ∧ Cuts (e.afterInLines c) s behind rest := by
  constructor
  · rintro ⟨inner, ends⟩
    cases body with
    | nil =>
      rcases ends with ⟨whole, outside⟩ | ⟨whole, -⟩
      · exact absurd ⟨(List.cons.inj whole).1, outside⟩ inside
      · cases whole
    | cons d body =>
      have later := (noneOutside_cons_iff.1 inner).2
      rcases ends with ⟨whole, outside⟩ | ⟨whole, left⟩
      · obtain ⟨rfl, rfl⟩ := List.cons.inj whole
        exact ⟨body, rfl, later, .inl ⟨rfl, outside⟩⟩
      · obtain ⟨rfl, rfl⟩ := List.cons.inj whole
        exact ⟨s, rfl, later, .inr ⟨rfl, left⟩⟩
  · rintro ⟨behind, rfl, inner, ends⟩
    refine ⟨noneOutside_cons_iff.2 ⟨inside, inner⟩, ?_⟩
    rcases ends with ⟨rfl, outside⟩ | ⟨rfl, left⟩
    · exact .inl ⟨rfl, outside⟩
    · exact .inr ⟨rfl, left⟩

/-- The rest of the body and what is behind it. -/
def cutBody (e : Enclosure) : List Char → List Char × List Char
  | [] => ([], [])
  | c :: r =>
    if c = '}' ∧ e = .outside then ([], r)
    else (c :: (cutBody (e.afterInLines c) r).1, (cutBody (e.afterInLines c) r).2)

theorem cutBody_closed (r : List Char) : cutBody .outside ('}' :: r) = ([], r) := if_pos ⟨rfl, rfl⟩

theorem cutBody_inside (inside : ¬ (c = '}' ∧ e = .outside)) (r : List Char) :
    cutBody e (c :: r) = (c :: (cutBody (e.afterInLines c) r).1, (cutBody (e.afterInLines c) r).2) :=
  if_neg inside

/-- Every text is cut in one way. -/
theorem cuts_iff : Cuts e s body rest ↔ cutBody e s = (body, rest) := by
  induction s generalizing e body with
  | nil => rw [cuts_nil_iff, cutBody, Prod.mk.injEq, eq_comm, @eq_comm _ rest]
  | cons c s ih =>
    by_cases closes : c = '}' ∧ e = .outside
    · obtain ⟨rfl, rfl⟩ := closes
      rw [cuts_closed_iff, cutBody_closed, Prod.mk.injEq, eq_comm, @eq_comm _ rest]
    · rw [cuts_inside_iff closes, cutBody_inside closes]
      constructor
      · rintro ⟨behind, rfl, cuts⟩
        rw [ih.1 cuts]
      · intro same
        obtain ⟨rfl, rfl⟩ := Prod.mk.inj same
        exact ⟨_, rfl, ih.2 rfl⟩

theorem cuts_cutBody (e : Enclosure) (s : List Char) : Cuts e s (cutBody e s).1 (cutBody e s).2 :=
  cuts_iff.2 rfl

/-! ## Lines without comments -/

theorem beginsComment_iff : BeginsComment s ↔ ['/', '/'] <+: s ∨ ['/', '*'] <+: s := by
  constructor
  · rintro (r | r)
    · exact .inl ⟨r, rfl⟩
    · exact .inr ⟨r, rfl⟩
  · rintro (⟨r, rfl⟩ | ⟨r, rfl⟩)
    · exact .line r
    · exact .block r

instance (s : List Char) : Decidable (BeginsComment s) := decidable_of_iff _ beginsComment_iff.symm

/-- Behind no line break of the text a comment begins the next line. -/
def CommentFreeBehind (s : List Char) : Prop :=
  ∀ t, BeginsLine t s → ¬ BeginsComment (skipIndent t)

theorem commentFreeBehind_nil : CommentFreeBehind [] := by
  rintro t ⟨c, -, behind⟩
  exact absurd (List.suffix_nil.1 behind) (List.cons_ne_nil c t)

theorem commentFreeBehind_cons_iff :
    CommentFreeBehind (c :: s) ↔
      (isLineBreak c = true → ¬ BeginsComment (skipIndent s)) ∧ CommentFreeBehind s := by
  constructor
  · intro free
    exact ⟨fun lineBreak => free s ⟨c, lineBreak, List.suffix_refl _⟩,
      fun t line => free t (line.cons c)⟩
  · rintro ⟨here, later⟩ t ⟨d, lineBreak, behind⟩
    rcases List.suffix_cons_iff.1 behind with same | inside
    · obtain ⟨rfl, rfl⟩ := List.cons.inj same
      exact here lineBreak
    · exact later t ⟨d, lineBreak, inside⟩

theorem CommentFreeBehind.of_suffix {t : List Char} (free : CommentFreeBehind s)
    (suffix : t <:+ s) : CommentFreeBehind t :=
  fun u line => free u (line.of_suffix suffix)

instance decidableCommentFreeBehind : (s : List Char) → Decidable (CommentFreeBehind s)
  | [] => .isTrue commentFreeBehind_nil
  | _ :: s =>
    have := decidableCommentFreeBehind s
    decidable_of_iff _ commentFreeBehind_cons_iff.symm

/-- No line of the text begins with a comment. -/
structure CommentFree (s : List Char) : Prop where
  first : ¬ BeginsComment (skipIndent s)
  later : CommentFreeBehind s

/-- Behind a brace nothing makes a comment of a text. -/
theorem beginsComment_of_append (h : BeginsComment (s ++ '}' :: rest)) : BeginsComment s := by
  match s with
  | [] => cases h
  | [c] => cases h
  | c :: d :: s =>
    cases h with
    | line => exact .line s
    | block => exact .block s

theorem skipIndent_append_brace (s rest : List Char) :
    skipIndent (s ++ '}' :: rest) = skipIndent s ++ '}' :: rest := by
  rw [skipIndent, skipIndent, List.dropWhile_append]
  split
  · next empty =>
    rw [List.isEmpty_iff.1 empty]
    rfl
  · rfl

theorem margin_skipIndent (s : List Char) : margin (skipIndent s) = margin s := by
  have indent : ∀ c ∈ s.takeWhile isIndent, isIndent c = true :=
    List.all_eq_true.1 List.all_takeWhile
  rw [← margin_append_of_isIndent indent (skipIndent s), skipIndent,
    List.takeWhile_append_dropWhile]

theorem margin_eq_skipIndent (h : ¬ BeginsComment (skipIndent s)) : margin s = skipIndent s := by
  have behind : ∀ c ∈ (skipIndent s).head?, isIndent c = false :=
    fun _ first => eq_false_of_mem_head?_dropWhile first
  rw [beginsComment_iff, not_or] at h
  rw [← margin_skipIndent, margin_eq_self behind h.1 h.2]

/-- A line of the body that begins with no comment has its indentation as its margin. -/
theorem Cuts.margin_eq (cuts : Cuts e s body rest) (h : ¬ BeginsComment (skipIndent body)) :
    margin s = skipIndent s := by
  refine margin_eq_skipIndent fun comment => h ?_
  rcases cuts.ends with ⟨rfl, -⟩ | ⟨rfl, -⟩
  · rw [skipIndent_append_brace] at comment
    exact beginsComment_of_append comment
  · exact comment

/-- Outside quotes, indentation opens nothing. -/
theorem cutBody_skipIndent (depth : Nat) (s : List Char) :
    cutBody ⟨depth, none⟩ (skipIndent s) =
      (skipIndent (cutBody ⟨depth, none⟩ s).1, (cutBody ⟨depth, none⟩ s).2) := by
  induction s with
  | nil => rfl
  | cons c s ih =>
    cases indent : isIndent c with
    | true =>
      have inside : ¬ (c = '}' ∧ (⟨depth, none⟩ : Enclosure) = .outside) := by
        rintro ⟨rfl, -⟩
        cases indent
      have stays : (⟨depth, none⟩ : Enclosure).afterInLines c = ⟨depth, none⟩ := by
        rcases eq_of_isIndent indent with rfl | rfl <;> rfl
      rw [skipIndent_cons_of_isIndent indent, cutBody_inside inside, stays,
        skipIndent_cons_of_isIndent indent, ih]
    | false =>
      have here : skipIndent (c :: s) = c :: s := by simp [skipIndent, indent]
      rw [here]
      by_cases closes : c = '}' ∧ (⟨depth, none⟩ : Enclosure) = .outside
      · rw [cutBody, if_pos closes]
        rfl
      · rw [cutBody_inside closes]
        simp [skipIndent, indent]

/-! ## One character -/

/-- Every other character of a line belongs to its statement, and the enclosure behind it is what the
scanner goes on with. -/
theorem statementRole_inside (inLine : isLineBreak c = false)
    (inside : ¬ (c = '}' ∧ e = .outside)) :
    statementRole e.depth e.quote c =
      .inside (e.afterInLines c).depth (e.afterInLines c).quote := by
  obtain ⟨depth, quote⟩ := e
  rw [Enclosure.afterInLines, inLine, if_neg Bool.false_ne_true, Enclosure.after_eq, statementRole,
    inLine, if_neg Bool.false_ne_true]
  cases literal : inLiteral quote c with
  | true => rfl
  | false =>
    obtain ⟨rfl, notQuote⟩ : quote = none ∧ isQuote c = false := by
      simpa [inLiteral] using literal
    have notClosed : ¬ (c == '}' && depth == 0) = true := by
      intro closes
      simp only [Bool.and_eq_true, beq_iff_eq] at closes
      exact inside ⟨closes.1, Enclosure.eq_outside_iff.2 ⟨closes.2, rfl⟩⟩
    simp only [Bool.false_eq_true, if_false, quoteAfter, notQuote, if_neg notClosed]
    split
    · next opens => rw [if_pos (show isOpening c = true from opens)]
    · next other =>
      rw [if_neg (show ¬ isOpening c = true from other)]
      split
      · next closes => rw [if_pos (show isClosing c = true from closes)]
      · next plain => rw [if_neg (show ¬ isClosing c = true from plain)]

/-! ## Conservation -/

/-- The scanner ends before a rest, and the trimmed statements that it has found hold a text but for
its blanks. -/
structure Conserves (found : List (List Char) × List Char) (text rest : List Char) : Prop where
  ends : found.2 = rest
  trimmed : ∀ statement ∈ found.1, statement ≠ [] ∧ IsTrimmed statement
  whole : visible found.1.flatten = visible text

section Conserves

variable {found : List (List Char) × List Char} {text text' : List Char}

theorem conserves_nil (rest : List Char) : Conserves ([], rest) [] rest :=
  ⟨rfl, fun _ member => absurd member List.not_mem_nil, rfl⟩

theorem Conserves.of_visible (h : Conserves found text rest) (same : visible text = visible text') :
    Conserves found text' rest :=
  ⟨h.ends, h.trimmed, h.whole.trans same⟩

theorem Conserves.consStatement (h : Conserves found text rest) (current : List Char) :
    Conserves (consStatement current found.1, found.2) (current ++ text) rest := by
  have kept := visible_trim current
  have trimmed := isTrimmed_trim current
  unfold BuildScript.consStatement
  cases same : trim current with
  | nil =>
    rw [same] at kept
    exact ⟨h.ends, h.trimmed, by rw [visible_append, ← kept, h.whole]; rfl⟩
  | cons c statement =>
    rw [same] at kept trimmed
    refine ⟨h.ends, ?_, ?_⟩
    · intro other member
      rcases List.mem_cons.1 member with rfl | later
      · exact ⟨List.cons_ne_nil c statement, trimmed⟩
      · exact h.trimmed other later
    · rw [List.flatten_cons, visible_append, visible_append, kept, h.whole]

/-- Whether the statement ends at a line break or goes on behind it, only blanks are lost there. -/
theorem conserves_lineBreak (lineBreak : isLineBreak c = true) {r : List Char}
    (line : margin r = skipIndent r)
    (behind : ∀ current : String, Conserves (statements e.depth none current (skipIndent r))
      (current.toList ++ skipIndent body) rest) (current : String) :
    Conserves (statements e.depth e.quote current (c :: r)) (current.toList ++ c :: body) rest := by
  have same : visible (skipIndent body) = visible (c :: body) := by
    rw [visible_cons, visible_singleton (isBlank_of_isLineBreak lineBreak), List.nil_append,
      skipIndent, visible_dropWhile fun _ => isBlank_of_isIndent]
  -- a statement that goes on keeps a line feed for the line break, one that ends keeps nothing
  by_cases goesOn : GoesOn e.depth current
  · rw [statements_of_goesOn goesOn lineBreak, line]
    refine (behind (current.push '\n')).of_visible ?_
    simp only [String.toList_push, visible_append, visible_singleton (show isBlank '\n' = true by
      decide), List.append_nil, same]
  · obtain ⟨zero, comma⟩ := not_goesOn_iff.1 goesOn
    rw [zero] at behind ⊢
    rw [statements_of_ends comma lineBreak, line]
    refine ((behind "").consStatement current.toList).of_visible ?_
    rw [visible_append, visible_append, visible_append, ← same]
    rfl

/-- From any place inside a block on, the statements end where the body does and keep what is
visible of it. -/
theorem conserves_statements (e : Enclosure) (current : String) (s : List Char)
    (free : CommentFreeBehind (cutBody e s).1) :
    Conserves (statements e.depth e.quote current s) (current.toList ++ (cutBody e s).1)
      (cutBody e s).2 := by
  match s with
  | [] =>
    rw [statements]
    exact (conserves_nil []).consStatement current.toList
  | c :: r =>
    by_cases closes : c = '}' ∧ e = .outside
    · obtain ⟨rfl, rfl⟩ := closes
      have last : statements Enclosure.outside.depth Enclosure.outside.quote current ('}' :: r) =
          (consStatement current.toList [], r) := statements_of_closing rfl current r
      rw [last]
      exact (conserves_nil r).consStatement current.toList
    rw [cutBody_inside closes] at free ⊢
    obtain ⟨line, later⟩ := commentFreeBehind_cons_iff.1 free
    cases lineBreak : isLineBreak c with
    | false =>
      have behind := conserves_statements (e.afterInLines c) (current.push c) r later
      rw [statements_of_inside (statementRole_inside lineBreak closes)]
      simpa using behind
    | true =>
      -- the statements go on behind the margin, so that the recursion is on the length of the text
      have shorter := (skipIndent_suffix r).length_le
      rw [Enclosure.afterInLines_lineBreak lineBreak] at line later ⊢
      refine conserves_lineBreak lineBreak ((cuts_cutBody _ r).margin_eq (line lineBreak)) ?_ current
      intro current
      have behind := conserves_statements ⟨e.depth, none⟩ current (skipIndent r)
      rw [cutBody_skipIndent] at behind
      exact behind (later.of_suffix (skipIndent_suffix _))
termination_by s.length

end Conserves

/-- Splitting a block into statements loses and repeats nothing.  It ends at the first `}` that is
met where nothing is open, or with the text, and the statements hold the body up to there but for
its blanks, if no comment begins a line of the body. -/
theorem blockStatements_conserve (s : List Char) :
    ∃ body rest, Cuts .outside s body rest ∧
      (CommentFree body →
        (blockStatements s).2 = rest ∧
          (∀ statement ∈ (blockStatements s).1, statement ≠ [] ∧ IsTrimmed statement) ∧
          visible (blockStatements s).1.flatten = visible body) := by
  have cuts := cuts_cutBody .outside s
  refine ⟨_, _, cuts, fun free => ?_⟩
  have indented : cutBody .outside (skipIndent s) =
      (skipIndent (cutBody .outside s).1, (cutBody .outside s).2) := cutBody_skipIndent 0 s
  have found := conserves_statements .outside "" (skipIndent s)
  rw [indented] at found
  obtain ⟨ends, trimmed, whole⟩ := found (free.later.of_suffix (skipIndent_suffix _))
  have start : blockStatements s = statements 0 none "" (skipIndent s) := by
    rw [blockStatements, cuts.margin_eq free.first]
  rw [start]
  refine ⟨ends, trimmed, whole.trans ?_⟩
  exact visible_dropWhile (fun _ => isBlank_of_isIndent) _

/-- A range, a quote that its line leaves open, and brackets of different kinds that do not match. -/
def unbalancedBody : List Char :=
  "\n  api 'g:n:[1,2)',\n\t'g:m:1' // two\n  run('a) b\n\x7d ] \x7b x\n\x7d\n".toList

def commentBehindBlock : List Char := "\n// end".toList

theorem blockStatements_conserve_unbalanced :
    CommentFree unbalancedBody ∧
      (blockStatements (unbalancedBody ++ '}' :: commentBehindBlock)).2 = commentBehindBlock ∧
      (∀ statement ∈ (blockStatements (unbalancedBody ++ '}' :: commentBehindBlock)).1,
        statement ≠ [] ∧ IsTrimmed statement) ∧
      visible (blockStatements (unbalancedBody ++ '}' :: commentBehindBlock)).1.flatten =
        visible unbalancedBody := by
  have free : CommentFree unbalancedBody := ⟨by decide, by decide +kernel⟩
  have here : cutBody .outside (unbalancedBody ++ '}' :: commentBehindBlock) =
      (unbalancedBody, commentBehindBlock) := by decide +kernel
  obtain ⟨body, rest, cuts, conserved⟩ :=
    blockStatements_conserve (unbalancedBody ++ '}' :: commentBehindBlock)
  obtain ⟨rfl, rfl⟩ := Prod.mk.inj ((cuts_iff.1 cuts).symm.trans here)
  exact ⟨free, conserved free⟩

end BuildScript.Splitting
