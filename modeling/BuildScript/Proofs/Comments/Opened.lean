import BuildScript.Proofs.Comments.Skip

/-!
# Comments that a scan opens

A scan opens a comment where it begins a line and finds one in the margin.  From there it goes on
with what the margin leaves, so that nothing it comes to depends on what the comment says.  A
comment that is not closed leaves nothing, like the end of the text.
-/

namespace BuildScript

variable {a b s s' t r : List Char}

/-! ## Comments in a margin -/

mutual

/-- The comments in the margin of a line, each as the text from its opening on. -/
def marginComments : List Char → List (List Char)
  | '/' :: '/' :: r => ['/' :: '/' :: r]
  | '/' :: '*' :: r => ('/' :: '*' :: r) :: commentsBehind r
  | c :: r => if isIndent c then marginComments r else []
  | [] => []

/-- The comments in the margin of a line behind the block comment that is read. -/
def commentsBehind : List Char → List (List Char)
  | '*' :: '/' :: r => marginComments r
  | _ :: r => commentsBehind r
  | [] => []

end

inductive BeginsComment : List Char → Prop where
  | line (r : List Char) : BeginsComment ('/' :: '/' :: r)
  | block (r : List Char) : BeginsComment ('/' :: '*' :: r)

theorem BeginsComment.length_margin_lt (h : BeginsComment a) : (margin a).length < a.length := by
  cases h with
  | line r =>
    rw [margin.eq_1]
    exact Nat.lt_succ_of_lt (Nat.lt_succ_of_le (skipLine_suffix r).length_le)
  | block r =>
    rw [margin.eq_2]
    have := (margin_suffix_and_blockComment_suffix.2 r).length_le
    exact Nat.lt_succ_of_lt (Nat.lt_succ_of_le this)

theorem BeginsComment.head?_eq (h : BeginsComment a) : a.head? = some '/' := by
  cases h <;> rfl

/-- No look ahead tells a comment from another one or from the end of the text. -/
theorem BeginsComment.seam (h : BeginsComment a) (other : b = [] ∨ BeginsComment b) :
    Seam a b := by
  have slash : ∀ c ∈ b.head?, c = '/' := by
    rcases other with rfl | other
    · simp
    · simp [other.head?_eq]
  have opens := h.length_margin_lt
  cases h with
  | line r => exact .comment (Nat.le_of_lt_succ opens) slash
  | block r => exact .comment (Nat.le_of_lt_succ opens) slash

theorem beginsComment_of_mem_marginComments :
    (∀ s, ∀ a ∈ marginComments s, BeginsComment a ∧ a <:+ s) ∧
      ∀ s, ∀ a ∈ commentsBehind s, BeginsComment a ∧ a <:+ s := by
  have onward : ∀ {c : Char} {a r : List Char},
      BeginsComment a ∧ a <:+ r → BeginsComment a ∧ a <:+ c :: r :=
    fun h => ⟨h.1, h.2.trans (List.suffix_cons _ _)⟩
  apply marginComments.mutual_induct
    (fun s => ∀ a ∈ marginComments s, BeginsComment a ∧ a <:+ s)
    (fun s => ∀ a ∈ commentsBehind s, BeginsComment a ∧ a <:+ s)
  case case1 =>
    intro r a opened
    rw [marginComments.eq_1] at opened
    rw [List.mem_singleton.1 opened]
    exact ⟨.line r, List.suffix_refl _⟩
  case case2 =>
    intro r ih a opened
    rw [marginComments.eq_2] at opened
    rcases List.mem_cons.1 opened with rfl | later
    · exact ⟨.block r, List.suffix_refl _⟩
    · exact onward (onward (ih a later))
  case case3 =>
    intro c r h₁ h₂ indent ih a opened
    rw [marginComments.eq_3 c r h₁ h₂, if_pos indent] at opened
    exact onward (ih a opened)
  case case4 =>
    intro c r h₁ h₂ code a opened
    rw [marginComments.eq_3 c r h₁ h₂, if_neg code] at opened
    cases opened
  case case5 =>
    intro a opened
    cases opened
  case case6 =>
    intro r ih a opened
    rw [commentsBehind.eq_1] at opened
    exact onward (onward (ih a opened))
  case case7 =>
    intro c r open_ ih a opened
    rw [commentsBehind.eq_2 c r open_] at opened
    exact onward (ih a opened)
  case case8 =>
    intro a opened
    cases opened

/-- With another comment in its place, or none, the margin goes on behind that one. -/
theorem margin_eq_of_mem_marginComments (opened : a ∈ marginComments s)
    (other : b = [] ∨ BeginsComment b) (upto : Upto a b s s') : margin s' = margin b := by
  have here : ∀ {s'}, Upto a b a s' → s' = b := fun upto => upto.unique .here
  suffices both : (∀ s, ∀ s', a ∈ marginComments s → Upto a b s s' → margin s' = margin b) ∧
      ∀ s, ∀ s', a ∈ commentsBehind s → Upto a b s s' → blockComment s' = margin b from
    both.1 s s' opened upto
  apply marginComments.mutual_induct
    (fun s => ∀ s', a ∈ marginComments s → Upto a b s s' → margin s' = margin b)
    (fun s => ∀ s', a ∈ commentsBehind s → Upto a b s s' → blockComment s' = margin b)
  case case1 =>
    intro r s' opened upto
    rw [marginComments.eq_1] at opened
    rw [← List.mem_singleton.1 opened] at upto
    rw [here upto]
  case case2 =>
    intro r ih s' opened upto
    rw [marginComments.eq_2] at opened
    rcases List.mem_cons.1 opened with rfl | later
    · rw [here upto]
    · have inside := (beginsComment_of_mem_marginComments.2 r a later).2
      obtain ⟨_, rfl, second⟩ := upto.behind (List.suffix_refl _)
        (Nat.le_succ_of_le inside.length_le)
      obtain ⟨r', rfl, behind⟩ := second.behind (List.suffix_refl r) inside.length_le
      rw [margin.eq_2]
      exact ih r' later behind
  case case3 =>
    intro c r h₁ h₂ indent ih s' opened upto
    rw [marginComments.eq_3 c r h₁ h₂, if_pos indent] at opened
    have inside := (beginsComment_of_mem_marginComments.1 r a opened).2
    obtain ⟨r', rfl, behind⟩ := upto.behind (List.suffix_refl r) inside.length_le
    rw [margin_cons_of_isIndent indent]
    exact ih r' opened behind
  case case4 =>
    intro c r h₁ h₂ code s' opened
    rw [marginComments.eq_3 c r h₁ h₂, if_neg code] at opened
    cases opened
  case case5 =>
    intro s' opened
    cases opened
  case case6 =>
    intro r ih s' opened upto
    rw [commentsBehind.eq_1] at opened
    have inside := (beginsComment_of_mem_marginComments.1 r a opened).2
    obtain ⟨_, rfl, second⟩ := upto.behind (List.suffix_refl _)
      (Nat.le_succ_of_le inside.length_le)
    obtain ⟨r', rfl, behind⟩ := second.behind (List.suffix_refl r) inside.length_le
    rw [blockComment.eq_1]
    exact ih r' opened behind
  case case7 =>
    intro c r open_ ih s' opened upto
    rw [commentsBehind.eq_2 c r open_] at opened
    have inside := beginsComment_of_mem_marginComments.2 r a opened
    obtain ⟨r', rfl, behind⟩ := upto.behind (List.suffix_refl r) inside.2.length_le
    rw [blockComment.eq_2 c r' (behind.second_ne (inside.1.seam other) open_)]
    exact ih r' opened behind
  case case8 =>
    intro s' opened
    cases opened

/-! ## Scans that go on behind a comment -/

/-- Behind the comment, with which the text ends, the function goes on with what the margin leaves,
whichever comment stands there or if none does.  It leaves an end of that. -/
def Resumes {α : Type} (left : α → List Char) (f : List Char → α) (a s : List Char) : Prop :=
  ∃ resume : List Char → α, (∀ m, left (resume m) <:+ m) ∧
    ∀ ⦃b s' : List Char⦄, (b = [] ∨ BeginsComment b) → Upto a b s s' → f s' = resume (margin b)

/-- The comments that the function opens, behind which it goes on with what the margin leaves. -/
structure Hides {α : Type} (left : α → List Char) (f : List Char → α)
    (comments : List Char → List (List Char)) : Prop where
  begins : ∀ {s a : List Char}, a ∈ comments s → BeginsComment a ∧ a <:+ s
  resumes : ∀ {s a : List Char}, a ∈ comments s → Resumes left f a s

section Resumes

variable {α β : Type} {left : α → List Char} {f : List Char → α}

theorem Resumes.map {below : β → List Char} (h : Resumes left f a s) (g : α → β)
    (suffix : ∀ x, below (g x) <:+ left x) : Resumes below (g ∘ f) a s := by
  obtain ⟨resume, ends, same⟩ := h
  refine ⟨g ∘ resume, fun m => (suffix (resume m)).trans (ends m), ?_⟩
  intro b s' other upto
  exact congrArg g (same other upto)

/-- A function that comes to another one at a place before the comment goes on like that one. -/
theorem Resumes.follow {g : List Char → α} (comment : BeginsComment a) (h : Resumes left f a t)
    (reaches : ∀ ⦃b s' : List Char⦄, Seam a b → Upto a b s s' →
      ∃ t', Upto a b t t' ∧ g s' = f t') : Resumes left g a s := by
  obtain ⟨resume, ends, same⟩ := h
  refine ⟨resume, ends, ?_⟩
  intro b s' other upto
  obtain ⟨t', behind, reached⟩ := reaches (comment.seam other) upto
  rw [reached]
  exact same other behind

/-- A comment behind the first characters is one behind what a scan leaves of them. -/
theorem Resumes.through {g : List Char → List Char} (keeps : Keeps g) (comment : BeginsComment a)
    (inside : a <:+ g s) (h : Resumes left f a (g s)) : Resumes left (f ∘ g) a s := by
  refine h.follow comment ?_
  intro b s' seam upto
  exact ⟨g s', keeps seam upto inside.length_le, rfl⟩

/-- A comment behind a character is one of the text behind it. -/
theorem Resumes.cons {g : List Char → α} {c : Char} (begins : BeginsComment a ∧ a <:+ r)
    (h : Resumes left f a r) (step : ∀ r', g (c :: r') = f r') : Resumes left g a (c :: r) := by
  refine h.follow begins.1 ?_
  intro b s' seam upto
  obtain ⟨r', rfl, behind⟩ := upto.behind (List.suffix_refl r) begins.2.length_le
  exact ⟨r', behind, step r'⟩

/-- A scan that takes the margin of a line first goes on behind the comments in it. -/
theorem Resumes.of_margin {g : List Char → α} (opened : a ∈ marginComments s)
    (margins : ∀ s, f s = g (margin s)) (ends : ∀ m, left (g m) <:+ m) : Resumes left f a s := by
  refine ⟨g, ends, ?_⟩
  intro b s' other upto
  rw [margins, margin_eq_of_mem_marginComments opened other upto]

/-- One scan after another, each with its comments. -/
theorem Hides.comp {comments earlier : List Char → List (List Char)} {g : List Char → List Char}
    (hf : Hides left f comments) (hg : Hides id g earlier) (keeps : Keeps g)
    (suffix : ∀ s, g s <:+ s) (ends : ∀ s, left (f s) <:+ s) :
    Hides left (f ∘ g) fun s => earlier s ++ comments (g s) := by
  constructor
  · intro s a opened
    rcases List.mem_append.1 opened with first | second
    · exact hg.begins first
    · obtain ⟨comment, inside⟩ := hf.begins second
      exact ⟨comment, inside.trans (suffix s)⟩
  · intro s a opened
    rcases List.mem_append.1 opened with first | second
    · exact (hg.resumes first).map f ends
    · obtain ⟨comment, inside⟩ := hf.begins second
      exact (hf.resumes second).through keeps comment inside

end Resumes

/-- The comments in the margins of lines. -/
def commentsOf (lines : List (List Char)) : List (List Char) := lines.flatMap marginComments

theorem mem_commentsOf {lines : List (List Char)} :
    a ∈ commentsOf lines ↔ ∃ t ∈ lines, a ∈ marginComments t := List.mem_flatMap

theorem begins_commentsOf {lines : List (List Char)} (inside : ∀ t ∈ lines, t <:+ s)
    (opened : a ∈ commentsOf lines) : BeginsComment a ∧ a <:+ s := by
  obtain ⟨t, line, opened⟩ := mem_commentsOf.1 opened
  obtain ⟨comment, behind⟩ := beginsComment_of_mem_marginComments.1 t a opened
  exact ⟨comment, behind.trans (inside t line)⟩

theorem hides_margin : Hides id margin marginComments := by
  constructor
  · intro s a opened
    exact beginsComment_of_mem_marginComments.1 s a opened
  · intro s a opened
    exact .of_margin opened (fun _ => rfl) List.suffix_refl

/-! ## Brackets and statements -/

/-- No comment begins in a string literal. -/
theorem resumes_of_literal {f f' : List Char → List Char} {quote next : Option Char} {c : Char}
    {rest : List Char} (begins : BeginsComment a ∧ a <:+ rest) (h : Resumes id f a rest)
    (taken : literalStep? quote c r = some (next, rest))
    (onward : ∀ r' rest', literalStep? quote c r' = some (next, rest') →
      f' (c :: r') = f rest') : Resumes id f' a (c :: r) := by
  obtain ⟨comment, inside⟩ := begins
  refine h.follow comment ?_
  intro b s' seam upto
  obtain ⟨r', rfl, behind⟩ := upto.behind (literalStep?_suffix taken) inside.length_le
  obtain ⟨rest', taken', ahead⟩ := literalStep?_upto seam taken behind inside.length_le
  exact ⟨rest', ahead, onward r' rest' taken'⟩

/-- Behind a character of code a line may begin, with comments in its margin. -/
theorem resumes_of_afterCode {f f' : List Char → List Char} {lines : List (List Char)} {c : Char}
    (opened : a ∈ commentsOf (lineIf (isLineBreak c) r ++ lines))
    (onward : ∀ r', f' (c :: r') = f (afterCode c r')) (ends : ∀ s, f s <:+ s)
    (begins : a ∈ commentsOf lines → BeginsComment a ∧ a <:+ afterCode c r)
    (later : a ∈ commentsOf lines → Resumes id f a (afterCode c r)) :
    Resumes id f' a (c :: r) := by
  obtain ⟨t, line, inMargin⟩ := mem_commentsOf.1 opened
  rcases List.mem_append.1 line with here | behind
  · obtain ⟨lineBreak, rfl⟩ := mem_lineIf.1 here
    have margins : Resumes id (f ∘ margin) a t := .of_margin inMargin (fun _ => rfl) ends
    refine margins.cons (beginsComment_of_mem_marginComments.1 t a inMargin) ?_
    intro r'
    rw [onward r', afterCode, if_pos lineBreak]
    rfl
  · have opened := mem_commentsOf.2 ⟨t, behind, inMargin⟩
    obtain ⟨comment, inside⟩ := begins opened
    exact ((later opened).through (keeps_afterCode c) comment inside).cons
      ⟨comment, inside.trans (afterCode_suffix c r)⟩ onward

theorem hides_skipBalanced (opening closing : Char) (depth : Nat) (quote : Option Char) :
    Hides id (skipBalanced opening closing depth quote)
      fun s => commentsOf (balancedLines opening closing depth quote s) := by
  have begins : ∀ {depth quote s a}, a ∈ commentsOf (balancedLines opening closing depth quote s) →
      BeginsComment a ∧ a <:+ s := fun opened =>
    begins_commentsOf (fun _ line => (beginsLine_of_mem_balancedLines line).suffix) opened
  refine ⟨begins, ?_⟩
  intro s a opened
  fun_induction balancedLines opening closing depth quote s with
  | case1 => cases opened
  | case2 depth quote c r next rest taken _ ih =>
    exact resumes_of_literal (begins opened) (ih opened) taken fun _ _ => skipBalanced_of_literal
  | case3 depth quote c r code _ opens ih =>
    refine (ih opened).cons (begins opened) ?_
    intro r'
    rw [skipBalanced_of_code (literalStep?_eq_none code r'), if_pos opens]
  | case4 => cases opened
  | case5 depth quote c r code _ other closes more ih =>
    refine (ih opened).cons (begins opened) ?_
    intro r'
    rw [skipBalanced_of_code (literalStep?_eq_none code r'), if_neg other, if_pos closes,
      if_neg more]
  | case6 depth quote c r code _ other inner ih =>
    have onward : ∀ r', skipBalanced opening closing depth quote (c :: r') =
        skipBalanced opening closing depth none (afterCode c r') := by
      intro r'
      rw [skipBalanced_of_code (literalStep?_eq_none code r'), if_neg other, if_neg inner]
    exact resumes_of_afterCode opened onward (skipBalanced_suffix opening closing depth none)
      begins ih

/-- The comments in a pair of parentheses, from before the blanks on. -/
def callComments (s : List Char) : List (List Char) := commentsOf (callLines s)

theorem hides_skipCall : Hides id skipCall callComments := by
  constructor
  · intro s a opened
    exact begins_commentsOf (fun _ line => (transparent_skipCall.begins line).suffix) opened
  · intro s a opened
    have blanks : Keeps skipIndent := keeps_dropWhile isIndent
    obtain ⟨t, line, inMargin⟩ := mem_commentsOf.1 opened
    unfold callLines at line
    split at line
    · next r call =>
      have parentheses := hides_skipBalanced '(' ')' 1 none
      have opened := mem_commentsOf.2 ⟨t, line, inMargin⟩
      obtain ⟨comment, inside⟩ := parentheses.begins opened
      refine (parentheses.resumes opened).follow comment ?_
      intro b s' seam upto
      have ahead := upto.skipIndent seam
      rw [call] at ahead
      obtain ⟨r', call', behind⟩ := ahead.behind (List.suffix_refl r) inside.length_le
      have whole : skipCall s' = skipBalanced '(' ')' 0 none ('(' :: r') := by
        simp only [skipCall, call']
      exact ⟨r', behind, whole.trans (skipBalanced_opening (by decide) r')⟩
    · cases line

theorem hides_skipStatement (depth : Nat) (quote : Option Char) :
    Hides id (skipStatement depth quote) fun s => commentsOf (statementLines depth quote s) := by
  have begins : ∀ {depth quote s a}, a ∈ commentsOf (statementLines depth quote s) →
      BeginsComment a ∧ a <:+ s := fun opened =>
    begins_commentsOf (fun _ line => (beginsLine_of_mem_statementLines line).suffix) opened
  refine ⟨begins, ?_⟩
  intro s a opened
  fun_induction statementLines depth quote s with
  | case1 => cases opened
  | case2 depth quote c r next rest taken _ ih =>
    exact resumes_of_literal (begins opened) (ih opened) taken fun _ _ => skipStatement_of_literal
  | case3 => cases opened
  | case4 depth quote c r code _ goesOn opens ih =>
    refine (ih opened).cons (begins opened) ?_
    intro r'
    rw [skipStatement_of_code (literalStep?_eq_none code r'), if_neg goesOn, if_pos opens]
  | case5 depth quote c r code _ goesOn other closes ih =>
    refine (ih opened).cons (begins opened) ?_
    intro r'
    rw [skipStatement_of_code (literalStep?_eq_none code r'), if_neg goesOn, if_neg other,
      if_pos closes]
  | case6 depth quote c r code _ goesOn other plain ih =>
    have onward : ∀ r', skipStatement depth quote (c :: r') =
        skipStatement depth none (afterCode c r') := by
      intro r'
      rw [skipStatement_of_code (literalStep?_eq_none code r'), if_neg goesOn, if_neg other,
        if_neg plain]
    exact resumes_of_afterCode opened onward (skipStatement_suffix depth none) begins ih

/-! ## Bodies -/

/-- The comments among blank lines, up to the first line with something else. -/
def blankComments (s : List Char) : List (List Char) := commentsOf (s :: blankLines s)

/-- Skip blank lines from behind the margin of the first. -/
def linesBehind (m : List Char) : List Char :=
  if m.head?.any isLineBreak then skipBlankLines m.tail else m

theorem linesBehind_suffix (m : List Char) : linesBehind m <:+ m := by
  unfold linesBehind
  split
  · exact (skipBlankLines_suffix m.tail).trans (List.tail_suffix m)
  · exact List.suffix_refl m

theorem skipBlankLines_eq_linesBehind (s : List Char) :
    skipBlankLines s = linesBehind (margin s) := by
  rw [skipBlankLines_eq]
  cases margin s with
  | nil => rfl
  | cons c r => rfl

theorem hides_skipBlankLines : Hides id skipBlankLines blankComments := by
  have begins : ∀ {s a}, a ∈ blankComments s → BeginsComment a ∧ a <:+ s := by
    intro s a opened
    refine begins_commentsOf ?_ opened
    intro t line
    rcases List.mem_cons.1 line with rfl | later
    · exact List.suffix_refl t
    · exact (beginsLine_of_mem_blankLines later).suffix
  refine ⟨begins, ?_⟩
  intro s a opened
  have inFirst : ∀ {s}, a ∈ marginComments s → Resumes id skipBlankLines a s := by
    intro s opened
    exact .of_margin opened skipBlankLines_eq_linesBehind linesBehind_suffix
  unfold blankComments at opened
  fun_induction blankLines s with
  | case1 | case3 =>
    obtain ⟨t, line, opened⟩ := mem_commentsOf.1 opened
    rw [List.mem_singleton.1 line] at opened
    exact inFirst opened
  | case2 s c r blank _ lineBreak ih =>
    obtain ⟨t, line, inMargin⟩ := mem_commentsOf.1 opened
    rcases List.mem_cons.1 line with rfl | later
    · exact inFirst inMargin
    · have opened : a ∈ blankComments r := mem_commentsOf.2 ⟨t, later, inMargin⟩
      obtain ⟨comment, inside⟩ := begins opened
      refine (ih opened).follow comment ?_
      intro b s' seam upto
      have longer : a.length ≤ (margin s).length := by
        rw [blank]
        exact Nat.le_succ_of_le inside.length_le
      have ahead := keeps_margin seam upto longer
      rw [blank] at ahead
      obtain ⟨r', blank', behind⟩ := ahead.behind (List.suffix_refl r) inside.length_le
      exact ⟨r', behind, skipBlankLines_of_lineBreak lineBreak blank'⟩

theorem skipGoverned_suffix (s : List Char) : skipGoverned s <:+ s := by
  unfold skipGoverned
  split
  · exact skipBalanced_suffix ..
  · exact skipStatement_suffix ..

theorem hides_skipGoverned : Hides id skipGoverned fun s => commentsOf (governedLines s) := by
  constructor
  · intro s a opened
    exact begins_commentsOf (fun _ line => (transparent_skipGoverned.begins line).suffix) opened
  · intro s a opened
    unfold governedLines at opened
    split at opened
    · next r =>
      have block := hides_skipBalanced '{' '}' 1 none
      refine (block.resumes opened).cons (block.begins opened) ?_
      intro r'
      exact skipBalanced_opening (by decide) r'
    · next s absent =>
      have statement := hides_skipStatement 0 none
      refine (statement.resumes opened).follow (statement.begins opened).1 ?_
      intro b s' seam upto
      have absent' := upto.first_ne seam absent
      refine ⟨s', upto, ?_⟩
      unfold skipGoverned
      split
      · next rest => exact (absent' rest rfl).elim
      · rfl

/-- The comments in what a condition governs, and before it. -/
def bodyComments (s : List Char) : List (List Char) :=
  blankComments s ++ commentsOf (governedLines (skipBlankLines s))

theorem hides_skipBody : Hides id skipBody bodyComments :=
  hides_skipGoverned.comp hides_skipBlankLines keeps_skipBlankLines skipBlankLines_suffix
    skipGoverned_suffix

/-! ## Conditionals and methods -/

/-- The comments in the test of a conditional and in its first body. -/
def branchComments (s : List Char) : List (List Char) :=
  callComments s ++ bodyComments (skipCall s)

theorem hides_branch : Hides id (skipBody ∘ skipCall) branchComments :=
  hides_skipBody.comp hides_skipCall keeps_skipCall skipCall_suffix skipBody_suffix

/-- The comments in the tests and the bodies of a conditional. -/
def conditionalComments (s : List Char) : List (List Char) :=
  match h : afterKeyword? "else" (skipSpace (skipBody (skipCall s))) with
  | none => branchComments s
  | some r =>
    match h' : afterKeyword? "if" (skipSpace r) with
    | none => branchComments s ++ bodyComments r
    | some rest =>
      have := length_else_if_lt h h'
      branchComments s ++ conditionalComments rest
  termination_by s.length

theorem skipAlternative_suffix (s : List Char) : skipAlternative s <:+ s := by
  unfold skipAlternative
  split
  · next r found =>
    exact (skipConditional_suffix r).trans ((afterKeyword?_suffix found).trans (skipSpace_suffix s))
  · exact skipBody_suffix s

/-- Skip an `else` behind the first branch of a conditional, if one follows. -/
def skipElse (s : List Char) : List Char :=
  (afterKeyword? "else" (skipSpace s)).elim s skipAlternative

theorem skipElse_suffix (s : List Char) : skipElse s <:+ s := by
  unfold skipElse
  cases found : afterKeyword? "else" (skipSpace s) with
  | none => exact List.suffix_refl s
  | some r =>
    exact (skipAlternative_suffix r).trans
      ((afterKeyword?_suffix found).trans (skipSpace_suffix s))

/-- Behind a comment in its first branch a conditional goes on with its `else`. -/
theorem resumes_of_mem_branchComments (opened : a ∈ branchComments s) :
    Resumes id skipConditional a s := by
  have whole : skipConditional = skipElse ∘ skipBody ∘ skipCall := by
    funext s
    rw [skipConditional_eq]
    cases found : afterKeyword? "else" (skipSpace (skipBody (skipCall s))) with
    | none => simp [skipElse, found]
    | some r => simp [skipElse, found]
  rw [whole]
  exact (hides_branch.resumes opened).map skipElse skipElse_suffix

theorem afterElse_upto {u u' : List Char} (seam : Seam u u') (upto : Upto u u' s s')
    (found : afterKeyword? "else" (skipSpace (skipBody (skipCall s))) = some r)
    (longer : u.length ≤ r.length) :
    ∃ r', afterKeyword? "else" (skipSpace (skipBody (skipCall s'))) = some r' ∧
      Upto u u' r r' := by
  have body : Keeps (skipBody ∘ skipCall) := keeps_skipBody.comp keeps_skipCall skipBody_suffix
  have before : u.length ≤ (skipBody (skipCall s)).length :=
    Nat.le_trans longer ((afterKeyword?_suffix found).trans (skipSpace_suffix _)).length_le
  exact (body seam upto before).keyword_found seam isWord_else found longer

theorem begins_conditionalComments (opened : a ∈ conditionalComments s) :
    BeginsComment a ∧ a <:+ s := by
  fun_induction conditionalComments s with
  | case1 s absent => exact hides_branch.begins opened
  | case2 s r found absent =>
    rcases List.mem_append.1 opened with first | second
    · exact hides_branch.begins first
    · obtain ⟨comment, inside⟩ := hides_skipBody.begins second
      exact ⟨comment, inside.trans (else_suffix found)⟩
  | case3 s r found rest more _ ih =>
    rcases List.mem_append.1 opened with first | later
    · exact hides_branch.begins first
    · obtain ⟨comment, inside⟩ := ih later
      exact ⟨comment, inside.trans (elseIf_suffix found more)⟩

theorem hides_skipConditional : Hides id skipConditional conditionalComments := by
  refine ⟨begins_conditionalComments, ?_⟩
  intro s a opened
  fun_induction conditionalComments s with
  | case1 s absent => exact resumes_of_mem_branchComments opened
  | case2 s r found absent =>
    rcases List.mem_append.1 opened with first | second
    · exact resumes_of_mem_branchComments first
    · obtain ⟨comment, inside⟩ := hides_skipBody.begins second
      refine (hides_skipBody.resumes second).follow comment ?_
      intro b s' seam upto
      obtain ⟨r', found', behind⟩ := afterElse_upto seam upto found inside.length_le
      have absent' := behind.keyword_absent seam isWord_if absent
      exact ⟨r', behind, skipConditional_of_else found' absent'⟩
  | case3 s r found rest more _ ih =>
    rcases List.mem_append.1 opened with first | later
    · exact resumes_of_mem_branchComments first
    · obtain ⟨comment, inside⟩ := begins_conditionalComments later
      refine (ih later).follow comment ?_
      intro b s' seam upto
      have below : rest <:+ r := (afterKeyword?_suffix more).trans (skipSpace_suffix r)
      obtain ⟨r', found', behind⟩ :=
        afterElse_upto seam upto found (inside.trans below).length_le
      obtain ⟨rest', more', onward⟩ :=
        behind.keyword_found seam isWord_if more inside.length_le
      exact ⟨rest', onward, skipConditional_of_elseIf found' more'⟩

/-- The comments in an alternative, from behind its `else`. -/
def alternativeComments (s : List Char) : List (List Char) :=
  match afterKeyword? "if" (skipSpace s) with
  | some r => conditionalComments r
  | none => bodyComments s

theorem hides_skipAlternative : Hides id skipAlternative alternativeComments := by
  constructor
  · intro s a opened
    unfold alternativeComments at opened
    split at opened
    · next r found =>
      obtain ⟨comment, inside⟩ := hides_skipConditional.begins opened
      exact ⟨comment, inside.trans ((afterKeyword?_suffix found).trans (skipSpace_suffix s))⟩
    · exact hides_skipBody.begins opened
  · intro s a opened
    unfold alternativeComments at opened
    split at opened
    · next r found =>
      obtain ⟨comment, inside⟩ := hides_skipConditional.begins opened
      refine (hides_skipConditional.resumes opened).follow comment ?_
      intro b s' seam upto
      obtain ⟨r', found', behind⟩ := upto.keyword_found seam isWord_if found inside.length_le
      exact ⟨r', behind, skipAlternative_of_if found'⟩
    · next absent =>
      refine (hides_skipBody.resumes opened).follow (hides_skipBody.begins opened).1 ?_
      intro b s' seam upto
      have absent' := upto.keyword_absent seam isWord_if absent
      exact ⟨s', upto, skipAlternative_of_body absent'⟩

/-- The comments in the parameters and in the body of a method. -/
def methodComments (s : List Char) : List (List Char) :=
  callComments s ++
    match skipSpace (skipCall s) with
    | '{' :: r => commentsOf (balancedLines '{' '}' 1 none r)
    | _ => []

/-- Skip the body of a method behind its parameters, if it has one. -/
def skipMethodBody (s : List Char) : List Char :=
  match skipSpace s with
  | '{' :: r => skipBalanced '{' '}' 0 none ('{' :: r)
  | _ => s

theorem skipMethodBody_suffix (s : List Char) : skipMethodBody s <:+ s := by
  unfold skipMethodBody
  split
  · next body => exact (skipBalanced_suffix ..).trans (body ▸ skipSpace_suffix s)
  · exact List.suffix_refl s

theorem hides_skipMethod : Hides id skipMethod methodComments := by
  have block := hides_skipBalanced '{' '}' 1 none
  constructor
  · intro s a opened
    rcases List.mem_append.1 opened with first | second
    · exact hides_skipCall.begins first
    · split at second
      · next r body =>
        obtain ⟨comment, inside⟩ := block.begins second
        have ahead : '{' :: r <:+ skipCall s := body ▸ skipSpace_suffix (skipCall s)
        exact ⟨comment, inside.trans
          ((List.suffix_cons '{' r).trans (ahead.trans (skipCall_suffix s)))⟩
      · cases second
  · intro s a opened
    rcases List.mem_append.1 opened with first | second
    · exact (hides_skipCall.resumes first).map skipMethodBody skipMethodBody_suffix
    · split at second
      · next r body =>
        obtain ⟨comment, inside⟩ := block.begins second
        refine (block.resumes second).follow comment ?_
        intro b s' seam upto
        have short := (skipSpace_suffix (skipCall s)).length_le
        have long := inside.length_le
        rw [body, List.length_cons] at short
        rcases (keeps_skipCall seam upto (by omega)).skipSpace seam with ahead | ⟨passed, -⟩
        · rw [body] at ahead
          obtain ⟨r', body', behind⟩ := ahead.behind (List.suffix_refl r) long
          have whole := (skipMethod_of_brace body').trans (skipBalanced_opening (by decide) r')
          exact ⟨r', behind, whole⟩
        · rw [body, List.length_cons] at passed
          omega
      · cases second

/-- The comments in a definition, which is a method if it has any. -/
def definitionComments (s : List Char) : List (List Char) :=
  match s.dropWhile fun c => !endsWords c with
  | '(' :: r => methodComments ('(' :: r)
  | _ => []

theorem hides_definition : Hides Prod.snd definition definitionComments := by
  have before : ∀ s : List Char, s.dropWhile (fun c => !endsWords c) <:+ s :=
    fun s => List.dropWhile_suffix _
  constructor
  · intro s a opened
    unfold definitionComments at opened
    split at opened
    · next r words =>
      obtain ⟨comment, inside⟩ := hides_skipMethod.begins opened
      exact ⟨comment, inside.trans (words ▸ before s)⟩
    · cases opened
  · intro s a opened
    unfold definitionComments at opened
    split at opened
    · next r words =>
      obtain ⟨comment, inside⟩ := hides_skipMethod.begins opened
      let unnamed (rest : List Char) : Option (List Char) × List Char := (none, rest)
      refine ((hides_skipMethod.resumes opened).map unnamed List.suffix_refl).follow comment ?_
      intro b s' seam upto
      have ahead := keeps_dropWhile (fun c => !endsWords c) seam upto
        (by rw [words]; exact inside.length_le)
      rw [words] at ahead
      obtain ⟨r', words'⟩ := ahead.exists_cons seam (by decide)
      rw [words'] at ahead
      refine ⟨'(' :: r', ahead, ?_⟩
      simp only [definition, words']
      rfl
    · cases opened

end BuildScript
