import BuildScript.Skip

/-!
# Looks ahead

The skipping functions look at a second character, for a keyword and across white space.  None of
these looks tells two texts apart that differ behind a brace, or where one of them begins a comment
and the other begins a comment as well or ends.  So such texts are skipped alike up to there.
-/

namespace BuildScript

open Text

/-! ## Seams -/

/-- A character in front of `r'` that hides what `r'` begins with: a brace, or a line break with a
comment behind it. -/
structure IsMark (r' : List Char) (c : Char) : Prop where
  ends : isLineBreak c = true ∨ c = '{' ∨ c = '}'
  comment : isSpace c = true → ∃ rest, skipSpace r' = '/' :: rest

theorem isMark_of_brace {c : Char} (h : c = '{' ∨ c = '}') (r' : List Char) : IsMark r' c := by
  refine ⟨.inr h, fun space => ?_⟩
  rcases h with rfl | rfl <;> cases space

/-- A property of line breaks and braces is one of every mark. -/
theorem IsMark.elim {motive : Char → Prop} {r' : List Char} {c : Char} (h : IsMark r' c)
    (plain : motive '\n' ∧ motive '\r' ∧ motive '{' ∧ motive '}') : motive c := by
  rcases h.ends with lineBreak | rfl | rfl
  · rcases eq_of_isLineBreak lineBreak with rfl | rfl
    · exact plain.1
    · exact plain.2.1
  · exact plain.2.2.1
  · exact plain.2.2.2

/-- Texts with different ends that no look ahead tells apart: both begin with the same mark, or the
first begins with a comment and the other with a slash if it is not empty. -/
inductive Seam : List Char → List Char → Prop where
  | mark {c : Char} {r r' : List Char} (h : IsMark r' c) : Seam (c :: r) (c :: r')
  | comment {r u' : List Char} (opens : (margin ('/' :: r)).length ≤ r.length)
    (slash : ∀ c ∈ u'.head?, c = '/') : Seam ('/' :: r) u'

/-- The texts are the same up to where they go on as `u` and as `u'`. -/
inductive Upto (u u' : List Char) : List Char → List Char → Prop where
  | here : Upto u u' u u'
  | cons (c : Char) {s s' : List Char} (h : Upto u u' s s') : Upto u u' (c :: s) (c :: s')

variable {u u' s s' t t' : List Char}

/-- A property of marks and slashes is one of the first character of a seam. -/
theorem Seam.elim {motive : Char → Prop} (h : Seam u u')
    (plain : motive '\n' ∧ motive '\r' ∧ motive '{' ∧ motive '}' ∧ motive '/') :
    ∃ c r, u = c :: r ∧ motive c ∧ ∀ d ∈ u'.head?, d = c := by
  obtain ⟨lineFeed, carriageReturn, opening, closing, slash⟩ := plain
  cases h with
  | mark h => exact ⟨_, _, rfl, h.elim ⟨lineFeed, carriageReturn, opening, closing⟩, by simp⟩
  | comment _ same => exact ⟨'/', _, rfl, slash, same⟩

namespace Upto

theorem length_le (h : Upto u u' s s') : u.length ≤ s.length := by
  induction h with
  | here => exact Nat.le_refl _
  | cons c h ih => exact Nat.le_succ_of_le ih

/-- The second text ends as it goes on behind what is the same. -/
theorem suffix (h : Upto u u' s s') : u' <:+ s' := by
  induction h with
  | here => exact List.suffix_refl u'
  | cons c h ih => exact ih.trans (List.suffix_cons c _)

theorem prepend (p : List Char) (h : Upto u u' s s') : Upto u u' (p ++ s) (p ++ s') := by
  induction p with
  | nil => exact h
  | cons c p ih => exact cons c ih

theorem unique {s'' : List Char} (h : Upto u u' s s') (h' : Upto u u' s s'') : s' = s'' := by
  induction h generalizing s'' with
  | here =>
    cases h' with
    | here => rfl
    | cons _ h' => exact absurd h'.length_le (Nat.not_succ_le_self _)
  | cons c h ih =>
    cases h' with
    | here => exact absurd h.length_le (Nat.not_succ_le_self _)
    | cons _ h' => exact congrArg (List.cons c) (ih h')

/-- What is read before texts that are the same up to a seam is the same. -/
theorem eq_append {p : List Char} (h : Upto u u' (p ++ t) s') (left : Upto u u' t t') :
    s' = p ++ t' :=
  h.unique (left.prepend p)

/-- A first character whose text is left with the seam is before it. -/
theorem behind {c : Char} {left : List Char} (h : Upto u u' (c :: t) s') (suffix : left <:+ t)
    (longer : u.length ≤ left.length) : ∃ t', s' = c :: t' ∧ Upto u u' t t' := by
  have := suffix.length_le
  cases h with
  | here => exact absurd (Nat.le_trans longer this) (Nat.not_succ_le_self _)
  | cons _ h => exact ⟨_, rfl, h⟩

end Upto

variable (seam : Seam u u')
include seam

theorem Seam.not_le_zero : ¬ u.length ≤ 0 := by
  obtain ⟨c, r, rfl, -⟩ := seam.elim (motive := fun _ => True) (by decide)
  exact Nat.not_succ_le_zero _

namespace Upto

theorem not_nil : ¬ Upto u u' [] s' := fun h => seam.not_le_zero h.length_le

/-- If the second text is not empty it begins like the first. -/
theorem head?_eq {c : Char} (h : Upto u u' (c :: t) s') : ∀ d ∈ s'.head?, d = c := by
  cases h with
  | here =>
    obtain ⟨d, r, same, -, first⟩ := seam.elim (motive := fun _ => True) (by decide)
    obtain ⟨rfl, rfl⟩ := List.cons.inj same
    exact first
  | cons _ h => simp

/-- The second text ends with the seam only where the first begins a comment. -/
theorem exists_cons {c : Char} (h : Upto u u' (c :: t) s') (slash : c ≠ '/') :
    ∃ t', s' = c :: t' := by
  cases h with
  | here =>
    cases seam with
    | mark => exact ⟨_, rfl⟩
    | comment => exact absurd rfl slash
  | cons _ h => exact ⟨_, rfl⟩

/-- A character that one text does not begin with does not begin the other. -/
theorem first_ne (h : Upto u u' s s') {c : Char} (absent : ∀ rest, s = c :: rest → False) :
    ∀ rest, s' = c :: rest → False := by
  rintro rest rfl
  cases s with
  | nil => exact h.not_nil seam
  | cons d t =>
    obtain rfl := h.head?_eq seam c rfl
    exact absent t rfl

/-- A pair of characters that is not in one text is not in the other. -/
theorem second_ne (h : Upto u u' s s') {c first second : Char}
    (absent : ∀ rest, c = first → s = second :: rest → False) :
    ∀ rest, c = first → s' = second :: rest → False := by
  intro rest found
  exact h.first_ne seam (fun rest => absent rest found) rest

end Upto

omit seam

/-- What the function leaves is settled by the text up to a seam, if it leaves that seam. -/
def Keeps (f : List Char → List Char) : Prop :=
  ∀ ⦃u u' s s' : List Char⦄, Seam u u' → Upto u u' s s' → u.length ≤ (f s).length →
    Upto u u' (f s) (f s')

theorem Keeps.comp {f g : List Char → List Char} (hf : Keeps f) (hg : Keeps g)
    (suffix : ∀ s, f s <:+ s) : Keeps (f ∘ g) := by
  intro u u' s s' seam upto longer
  have before : u.length ≤ (g s).length := Nat.le_trans longer (suffix (g s)).length_le
  exact hf seam (hg seam upto before) longer

/-! ## Blanks and comments -/

theorem keeps_dropWhile (p : Char → Bool) : Keeps (List.dropWhile p) := by
  intro u u' s s' seam upto
  induction upto with
  | here =>
    intro longer
    obtain ⟨c, r, rfl, -, first⟩ := seam.elim (motive := fun _ => True) (by decide)
    have stops : p c = false := by
      cases taken : p c with
      | false => rfl
      | true =>
        have short := (List.dropWhile_suffix p (l := r)).length_le
        simp only [List.dropWhile_cons, taken, if_true, List.length_cons] at longer
        omega
    cases u' with
    | nil =>
      simp only [List.dropWhile_cons, stops]
      exact .here
    | cons d r' =>
      obtain rfl := first d rfl
      simp only [List.dropWhile_cons, stops]
      exact .here
  | cons c h ih =>
    intro longer
    cases taken : p c with
    | true =>
      simp only [List.dropWhile_cons, taken, if_true] at longer ⊢
      exact ih longer
    | false =>
      simp only [List.dropWhile_cons, taken]
      exact .cons c h

/-- A search that ends before the seam passes over the same characters in both texts. -/
theorem Upto.takeWhile (seam : Seam u u') (upto : Upto u u' s s') {p : Char → Bool}
    (longer : u.length ≤ (s.dropWhile p).length) : s'.takeWhile p = s.takeWhile p := by
  have ahead := keeps_dropWhile p seam upto longer
  have whole : s' = s.takeWhile p ++ s'.dropWhile p :=
    Upto.eq_append (by rwa [List.takeWhile_append_dropWhile]) ahead
  have whole' : s' = s'.takeWhile p ++ s'.dropWhile p := List.takeWhile_append_dropWhile.symm
  exact List.append_cancel_right (whole'.symm.trans whole)

/-- No indentation goes on across a seam. -/
theorem Upto.skipIndent (seam : Seam u u') (upto : Upto u u' s s') :
    Upto u u' (skipIndent s) (skipIndent s') := by
  refine keeps_dropWhile isIndent seam upto ?_
  induction upto with
  | here =>
    obtain ⟨c, r, rfl, code, -⟩ := seam.elim (motive := (isIndent · = false)) (by decide)
    simp [code]
  | cons c h ih =>
    cases indent : isIndent c with
    | true => simpa only [List.dropWhile_cons, indent, if_true] using ih
    | false =>
      simp only [List.dropWhile_cons, indent]
      exact (Upto.cons c h).length_le

/-- A look across white space ends at the seam, or it goes past a line break and finds a comment in
one of the texts. -/
theorem Upto.skipSpace (seam : Seam u u') (upto : Upto u u' s s') :
    Upto u u' (skipSpace s) (skipSpace s') ∨
      (BuildScript.skipSpace s).length < u.length ∧
        ∃ rest, BuildScript.skipSpace s' = '/' :: rest := by
  by_cases longer : u.length ≤ (BuildScript.skipSpace s).length
  · exact .inl (keeps_dropWhile isSpace seam upto longer)
  refine .inr ⟨Nat.lt_of_not_le longer, ?_⟩
  induction upto with
  | here =>
    cases seam with
    | @mark c r r' h =>
      cases space : isSpace c with
      | true =>
        have passes : BuildScript.skipSpace (c :: r') = BuildScript.skipSpace r' := by
          simp [BuildScript.skipSpace, space]
        rw [passes]
        exact h.comment space
      | false => exact absurd (by simp [BuildScript.skipSpace, space]) longer
    | comment =>
      exact absurd (by simp [BuildScript.skipSpace, isSpace, isIndent, isLineBreak]) longer
  | @cons c s s' h ih =>
    cases space : isSpace c with
    | true =>
      have passes : ∀ t, BuildScript.skipSpace (c :: t) = BuildScript.skipSpace t := by
        intro t
        simp [BuildScript.skipSpace, space]
      rw [passes] at longer ⊢
      exact ih longer
    | false =>
      refine absurd ?_ longer
      simp only [BuildScript.skipSpace, List.dropWhile_cons, space]
      exact (Upto.cons c h).length_le

theorem keeps_tail : Keeps List.tail := by
  intro u u' s s' seam upto longer
  cases upto with
  | here =>
    obtain ⟨c, r, rfl, -⟩ := seam.elim (motive := fun _ => True) (by decide)
    exact absurd longer (Nat.not_succ_le_self _)
  | cons c h => exact h

theorem keeps_skipLine : Keeps skipLine := keeps_dropWhile _

/-- A seam at which a margin ends begins with no comment and no indentation in either text. -/
theorem Seam.margin_eq (seam : Seam u u') (longer : u.length ≤ (margin u).length) :
    margin u' = u' := by
  cases seam with
  | mark h =>
    have plain : ∀ {c : Char}, isIndent c = false ∧ c ≠ '/' → ∀ r, margin (c :: r) = c :: r :=
      fun h => margin_cons_of_not h.1 h.2
    exact plain (h.elim (motive := fun c => isIndent c = false ∧ c ≠ '/') (by decide)) _
  | comment opens =>
    rw [List.length_cons] at longer
    omega

theorem keeps_margin_and_blockComment : Keeps margin ∧ Keeps blockComment := by
  suffices both : (∀ s, ∀ u u' s', Seam u u' → Upto u u' s s' → u.length ≤ (margin s).length →
        Upto u u' (margin s) (margin s')) ∧
      ∀ s, ∀ u u' s', Seam u u' → Upto u u' s s' → u.length ≤ (blockComment s).length →
        Upto u u' (blockComment s) (blockComment s') from
    ⟨fun _ _ _ _ => both.1 _ _ _ _, fun _ _ _ _ => both.2 _ _ _ _⟩
  apply margin.mutual_induct
  case case1 =>
    intro t u u' s' seam upto longer
    rw [margin.eq_1] at longer ⊢
    obtain ⟨_, rfl, second⟩ :=
      upto.behind ((skipLine_suffix t).trans (List.suffix_cons _ _)) longer
    obtain ⟨t', rfl, behind⟩ := second.behind (skipLine_suffix t) longer
    rw [margin.eq_1]
    exact keeps_skipLine seam behind longer
  case case2 =>
    intro t ih u u' s' seam upto longer
    have suffix := margin_suffix_and_blockComment_suffix.2 t
    rw [margin.eq_2] at longer ⊢
    obtain ⟨_, rfl, second⟩ := upto.behind (suffix.trans (List.suffix_cons _ _)) longer
    obtain ⟨t', rfl, behind⟩ := second.behind suffix longer
    rw [margin.eq_2]
    exact ih u u' t' seam behind longer
  case case3 =>
    intro c t h₁ h₂ indent ih u u' s' seam upto longer
    rw [margin_cons_of_isIndent indent] at longer ⊢
    obtain ⟨t', rfl, behind⟩ := upto.behind (margin_suffix t) longer
    rw [margin_cons_of_isIndent indent]
    exact ih u u' t' seam behind longer
  case case4 =>
    intro c t h₁ h₂ code u u' s' seam upto longer
    have same : margin (c :: t) = c :: t := by rw [margin.eq_3 c t h₁ h₂, if_neg code]
    rw [same] at longer ⊢
    cases upto with
    | here =>
      rw [seam.margin_eq (same.symm ▸ longer)]
      exact .here
    | @cons _ _ t' h =>
      rw [margin.eq_3 c t' (h.second_ne seam h₁) (h.second_ne seam h₂), if_neg code]
      exact .cons c h
  case case5 =>
    intro u u' s' seam upto longer
    exact absurd upto (Upto.not_nil seam)
  case case6 =>
    intro t ih u u' s' seam upto longer
    rw [blockComment.eq_1] at longer ⊢
    obtain ⟨_, rfl, second⟩ :=
      upto.behind ((margin_suffix t).trans (List.suffix_cons _ _)) longer
    obtain ⟨t', rfl, behind⟩ := second.behind (margin_suffix t) longer
    rw [blockComment.eq_1]
    exact ih u u' t' seam behind longer
  case case7 =>
    intro c t open_ ih u u' s' seam upto longer
    rw [blockComment.eq_2 c t open_] at longer ⊢
    obtain ⟨t', rfl, behind⟩ :=
      upto.behind (margin_suffix_and_blockComment_suffix.2 t) longer
    rw [blockComment.eq_2 c t' (behind.second_ne seam open_)]
    exact ih u u' t' seam behind longer
  case case8 =>
    intro u u' s' seam upto
    exact absurd upto (Upto.not_nil seam)

theorem keeps_margin : Keeps margin := keeps_margin_and_blockComment.1

theorem keeps_afterCode (c : Char) : Keeps (afterCode c) := by
  intro u u' s s' seam upto longer
  unfold afterCode at longer ⊢
  cases lineBreak : isLineBreak c with
  | true =>
    simp only [lineBreak, if_true] at longer ⊢
    exact keeps_margin seam upto longer
  | false => exact upto

/-! ## Literals and brackets -/

/-- Whether a character belongs to a literal does not depend on the text behind it. -/
theorem literalStep?_eq_none {quote : Option Char} {c : Char} (h : literalStep? quote c t = none)
    (t' : List Char) : literalStep? quote c t' = none := by
  unfold literalStep? at h ⊢
  cases quote with
  | none =>
    simp only at h ⊢
    split at h
    · cases h
    · next code => exact if_neg code
  | some q =>
    simp only at h ⊢
    split at h
    · next lineBreak => exact if_pos lineBreak
    · repeat' split at h
      all_goals cases h

theorem literalStep?_upto (seam : Seam u u') {quote next : Option Char} {c : Char}
    {rest : List Char} (h : literalStep? quote c t = some (next, rest)) (upto : Upto u u' t t')
    (longer : u.length ≤ rest.length) :
    ∃ rest', literalStep? quote c t' = some (next, rest') ∧ Upto u u' rest rest' := by
  unfold literalStep? at h ⊢
  cases quote with
  | none =>
    simp only at h ⊢
    split at h
    · next opens =>
      cases h
      exact ⟨t', if_pos opens, upto⟩
    · cases h
  | some q =>
    simp only at h ⊢
    split at h
    · cases h
    · next inside =>
      rw [if_neg inside]
      split at h
      · next escape =>
        cases h
        exact ⟨t'.tail, if_pos escape, keeps_tail seam upto longer⟩
      · next plain =>
        rw [if_neg plain]
        split at h
        · next closes =>
          cases h
          exact ⟨t', if_pos closes, upto⟩
        · next goesOn =>
          cases h
          exact ⟨t', if_neg goesOn, upto⟩

theorem skipBalanced_of_literal {opening closing : Char} {depth : Nat} {quote next : Option Char}
    {c : Char} {rest : List Char} (h : literalStep? quote c t = some (next, rest)) :
    skipBalanced opening closing depth quote (c :: t) =
      skipBalanced opening closing depth next rest := by
  rw [skipBalanced]
  split <;> simp_all

theorem skipBalanced_of_code {opening closing : Char} {depth : Nat} {quote : Option Char}
    {c : Char} (h : literalStep? quote c t = none) :
    skipBalanced opening closing depth quote (c :: t) =
      if c == opening then skipBalanced opening closing (depth + 1) none t
      else if c == closing then
        if depth ≤ 1 then t else skipBalanced opening closing (depth - 1) none t
      else skipBalanced opening closing depth none (afterCode c t) := by
  rw [skipBalanced]
  split <;> simp_all

theorem keeps_skipBalanced (opening closing : Char) (depth : Nat) (quote : Option Char) :
    Keeps (skipBalanced opening closing depth quote) := by
  intro u u' s s' seam upto longer
  fun_induction skipBalanced opening closing depth quote s generalizing s' with
  | case1 => exact absurd upto (Upto.not_nil seam)
  | case2 depth quote c t next rest taken _ ih =>
    have suffix := skipBalanced_suffix opening closing depth next rest
    obtain ⟨t', rfl, behind⟩ := upto.behind (suffix.trans (literalStep?_suffix taken)) longer
    have before : u.length ≤ rest.length := Nat.le_trans longer suffix.length_le
    obtain ⟨rest', taken', onward⟩ := literalStep?_upto seam taken behind before
    rw [skipBalanced_of_literal taken']
    exact ih onward longer
  | case3 depth quote c t code _ opens ih =>
    obtain ⟨t', rfl, behind⟩ := upto.behind (skipBalanced_suffix ..) longer
    rw [skipBalanced_of_code (literalStep?_eq_none code t'), if_pos opens]
    exact ih behind longer
  | case4 depth quote c t code _ other closes last =>
    obtain ⟨t', rfl, behind⟩ := upto.behind (List.suffix_refl t) longer
    rw [skipBalanced_of_code (literalStep?_eq_none code t'), if_neg other, if_pos closes,
      if_pos last]
    exact behind
  | case5 depth quote c t code _ other closes more ih =>
    obtain ⟨t', rfl, behind⟩ := upto.behind (skipBalanced_suffix ..) longer
    rw [skipBalanced_of_code (literalStep?_eq_none code t'), if_neg other, if_pos closes,
      if_neg more]
    exact ih behind longer
  | case6 depth quote c t code _ other inner ih =>
    have suffix := skipBalanced_suffix opening closing depth none (afterCode c t)
    obtain ⟨t', rfl, behind⟩ := upto.behind (suffix.trans (afterCode_suffix c t)) longer
    rw [skipBalanced_of_code (literalStep?_eq_none code t'), if_neg other, if_neg inner]
    exact ih (keeps_afterCode c seam behind (Nat.le_trans longer suffix.length_le)) longer

theorem keeps_skipCall : Keeps skipCall := by
  intro u u' s s' seam upto longer
  have blanks := upto.skipIndent seam
  unfold skipCall at longer ⊢
  generalize skipIndent s = call at blanks longer ⊢
  generalize skipIndent s' = call' at blanks ⊢
  split at longer
  · obtain ⟨t', rfl, behind⟩ := blanks.behind (skipBalanced_cons_suffix ..) longer
    exact keeps_skipBalanced '(' ')' 0 none seam (.cons '(' behind) longer
  · next absent =>
    split
    · next rest => exact (blanks.first_ne seam absent rest rfl).elim
    · exact blanks

/-! ## Statements -/

theorem skipStatement_of_literal {depth : Nat} {quote next : Option Char} {c : Char}
    {rest : List Char} (h : literalStep? quote c t = some (next, rest)) :
    skipStatement depth quote (c :: t) = skipStatement depth next rest := by
  rw [skipStatement]
  split <;> simp_all

theorem skipStatement_of_code {depth : Nat} {quote : Option Char} {c : Char}
    (h : literalStep? quote c t = none) :
    skipStatement depth quote (c :: t) =
      if depth == 0 && (isLineBreak c || c == '}') then c :: t
      else if c == '{' || c == '(' then skipStatement (depth + 1) none t
      else if c == '}' || c == ')' then skipStatement (depth - 1) none t
      else skipStatement depth none (afterCode c t) := by
  rw [skipStatement]
  split <;> simp_all

theorem keeps_skipStatement (depth : Nat) (quote : Option Char) :
    Keeps (skipStatement depth quote) := by
  intro u u' s s' seam upto longer
  fun_induction skipStatement depth quote s generalizing s' with
  | case1 => exact absurd upto (Upto.not_nil seam)
  | case2 depth quote c t next rest taken _ ih =>
    have suffix := skipStatement_suffix depth next rest
    obtain ⟨t', rfl, behind⟩ := upto.behind (suffix.trans (literalStep?_suffix taken)) longer
    have before : u.length ≤ rest.length := Nat.le_trans longer suffix.length_le
    obtain ⟨rest', taken', onward⟩ := literalStep?_upto seam taken behind before
    rw [skipStatement_of_literal taken']
    exact ih onward longer
  | case3 depth quote c t code _ ends =>
    have slash : c ≠ '/' := by
      rintro rfl
      simp [isLineBreak] at ends
    obtain ⟨t', rfl⟩ := upto.exists_cons seam slash
    rw [skipStatement_of_code (literalStep?_eq_none code t'), if_pos ends]
    exact upto
  | case4 depth quote c t code _ goesOn opens ih =>
    obtain ⟨t', rfl, behind⟩ := upto.behind (skipStatement_suffix ..) longer
    rw [skipStatement_of_code (literalStep?_eq_none code t'), if_neg goesOn, if_pos opens]
    exact ih behind longer
  | case5 depth quote c t code _ goesOn other closes ih =>
    obtain ⟨t', rfl, behind⟩ := upto.behind (skipStatement_suffix ..) longer
    rw [skipStatement_of_code (literalStep?_eq_none code t'), if_neg goesOn, if_neg other,
      if_pos closes]
    exact ih behind longer
  | case6 depth quote c t code _ goesOn other inner ih =>
    have suffix := skipStatement_suffix depth none (afterCode c t)
    obtain ⟨t', rfl, behind⟩ := upto.behind (suffix.trans (afterCode_suffix c t)) longer
    rw [skipStatement_of_code (literalStep?_eq_none code t'), if_neg goesOn, if_neg other,
      if_neg inner]
    exact ih (keeps_afterCode c seam behind (Nat.le_trans longer suffix.length_le)) longer

theorem skipBlankLines_suffix_margin (s : List Char) : skipBlankLines s <:+ margin s := by
  rw [skipBlankLines_eq]
  split
  · exact List.nil_suffix
  · next c t code =>
    rw [code]
    split
    · exact (skipBlankLines_suffix t).trans (List.suffix_cons c t)
    · exact List.suffix_refl _

theorem keeps_skipBlankLines : Keeps skipBlankLines := by
  intro u u' s s' seam upto longer
  have here := skipBlankLines_suffix_margin s
  have lines := keeps_margin seam upto (Nat.le_trans longer here.length_le)
  fun_induction skipBlankLines s generalizing s' with
  | case1 => exact absurd longer (seam.not_le_zero)
  | case2 s c t code _ lineBreak ih =>
    rw [code] at lines
    obtain ⟨t', same, behind⟩ := lines.behind (skipBlankLines_suffix t) longer
    have below := skipBlankLines_suffix_margin t
    rw [skipBlankLines_eq s', same]
    simp only [lineBreak, if_true]
    exact ih behind longer below
      (keeps_margin seam behind (Nat.le_trans longer below.length_le))
  | case3 s c t code _ text =>
    rw [code] at lines
    rw [skipBlankLines_eq s']
    cases same : margin s' with
    | nil =>
      rw [same] at lines
      exact lines
    | cons d t' =>
      rw [same] at lines
      have first : d = c := (lines.head?_eq seam d rfl)
      subst first
      simpa only [text, Bool.false_eq_true, if_false] using lines

theorem keeps_skipBody : Keeps skipBody := by
  intro u u' s s' seam upto longer
  have short : skipBody s <:+ skipBlankLines s := by
    unfold skipBody
    split
    · next h => exact h ▸ skipBalanced_suffix ..
    · exact skipStatement_suffix ..
  have lines := keeps_skipBlankLines seam upto (Nat.le_trans longer short.length_le)
  unfold skipBody at longer ⊢
  generalize skipBlankLines s = body at lines longer ⊢
  generalize skipBlankLines s' = body' at lines ⊢
  split at longer
  · obtain ⟨t', rfl, behind⟩ := lines.behind (skipBalanced_cons_suffix ..) longer
    exact keeps_skipBalanced '{' '}' 0 none seam (.cons '{' behind) longer
  · next absent =>
    split
    · next rest => exact (lines.first_ne seam absent rest rfl).elim
    · exact keeps_skipStatement 0 none seam lines longer

/-! ## Conditionals and methods -/

/-- A text of letters, which a seam ends and no comment begins with. -/
structure IsWord (s : List Char) : Prop where
  nonempty : s ≠ []
  letters : ∀ c ∈ s, c.isAlpha = true

/-- A seam ends the search for letters. -/
theorem after?_upto (seam : Seam u u') {start : List Char}
    (letters : ∀ c ∈ start, c.isAlpha = true) (upto : Upto u u' s s') :
    (after? start s = none ∧ after? start s' = none) ∨
      ∃ t t', after? start s = some t ∧ after? start s' = some t' ∧ Upto u u' t t' := by
  induction start generalizing s s' with
  | nil => exact .inr ⟨s, s', rfl, rfl, upto⟩
  | cons p start ih =>
    cases upto with
    | here =>
      obtain ⟨c, r, rfl, notLetter, first⟩ :=
        seam.elim (motive := (·.isAlpha ≠ true)) (by decide)
      have other : ¬ (p == c) = true := by
        intro same
        exact notLetter (letters c (by simp [eq_of_beq same]))
      refine .inl ⟨if_neg other, ?_⟩
      cases u' with
      | nil => rfl
      | cons d r' =>
        obtain rfl := first d rfl
        exact if_neg other
    | @cons c t t' h =>
      by_cases same : (p == c) = true
      · rw [after?, after?, if_pos same, if_pos same]
        exact ih (fun c hc => letters c (List.mem_cons_of_mem p hc)) h
      · exact .inl ⟨if_neg same, if_neg same⟩

theorem afterKeyword?_upto (seam : Seam u u') {keyword : String} (word : IsWord keyword.toList)
    (upto : Upto u u' s s') :
    (afterKeyword? keyword s = none ∧ afterKeyword? keyword s' = none) ∨
      ∃ t t', afterKeyword? keyword s = some t ∧ afterKeyword? keyword s' = some t' ∧
        Upto u u' t t' := by
  rcases after?_upto seam word.letters upto with ⟨absent, absent'⟩ | ⟨t, t', found, found', behind⟩
  · left
    rw [afterKeyword?, afterKeyword?, absent, absent']
    exact ⟨rfl, rfl⟩
  · rw [afterKeyword?, afterKeyword?, found, found']
    cases behind with
    | here =>
      obtain ⟨c, r, rfl, ends, first⟩ := seam.elim (motive := (isNameChar · = false)) (by decide)
      right
      cases u' with
      | nil => exact ⟨_, _, by simp [ends], rfl, .here⟩
      | cons d r' =>
        obtain rfl := first d rfl
        exact ⟨_, _, by simp [ends], by simp [ends], .here⟩
    | @cons c _ _ h =>
      cases name : isNameChar c with
      | true =>
        left
        simp [name]
      | false =>
        right
        exact ⟨_, _, by simp [name], by simp [name], .cons c h⟩

theorem afterKeyword?_slash {keyword : String} (word : IsWord keyword.toList) (rest : List Char) :
    afterKeyword? keyword ('/' :: rest) = none := by
  obtain ⟨p, ps, same⟩ := List.exists_cons_of_ne_nil word.nonempty
  have other : ¬ (p == '/') = true := by
    intro slash
    have letter := word.letters p (by simp [same])
    rw [eq_of_beq slash] at letter
    cases letter
  rw [afterKeyword?, same, after?, if_neg other]

/-- A keyword that does not follow in one text does not follow in the other. -/
theorem Upto.keyword_absent (seam : Seam u u') {keyword : String} (word : IsWord keyword.toList)
    (upto : Upto u u' s s') (absent : afterKeyword? keyword (BuildScript.skipSpace s) = none) :
    afterKeyword? keyword (BuildScript.skipSpace s') = none := by
  rcases upto.skipSpace seam with ahead | ⟨-, rest, comment⟩
  · rcases afterKeyword?_upto seam word ahead with ⟨-, absent'⟩ | ⟨t, t', found, -, -⟩
    · exact absent'
    · cases absent.symm.trans found
  · rw [comment]
    exact afterKeyword?_slash word rest

/-- A keyword that is found before the seam is found in both texts. -/
theorem Upto.keyword_found (seam : Seam u u') {keyword : String} (word : IsWord keyword.toList)
    (upto : Upto u u' s s') (found : afterKeyword? keyword (BuildScript.skipSpace s) = some t)
    (longer : u.length ≤ t.length) :
    ∃ t', afterKeyword? keyword (BuildScript.skipSpace s') = some t' ∧ Upto u u' t t' := by
  rcases upto.skipSpace seam with ahead | ⟨short, -⟩
  · rcases afterKeyword?_upto seam word ahead with ⟨absent, -⟩ | ⟨left, t', found', same, behind⟩
    · cases absent.symm.trans found
    · cases found.symm.trans found'
      exact ⟨t', same, behind⟩
  · have := (afterKeyword?_suffix found).length_le
    omega

theorem isWord_else : IsWord "else".toList := ⟨by simp, by simp⟩

theorem isWord_if : IsWord "if".toList := ⟨by simp, by simp⟩

theorem skipConditional_of_alone
    (absent : afterKeyword? "else" (skipSpace (skipBody (skipCall s))) = none) :
    skipConditional s = skipBody (skipCall s) := by
  rw [skipConditional]
  split
  · rfl
  · next found => simp [absent] at found

theorem skipConditional_of_else
    (found : afterKeyword? "else" (skipSpace (skipBody (skipCall s))) = some t)
    (absent : afterKeyword? "if" (skipSpace t) = none) : skipConditional s = skipBody t := by
  rw [skipConditional]
  split
  · next missing => simp [found] at missing
  · next other same =>
    cases found.symm.trans same
    split
    · rfl
    · next found' => simp [absent] at found'

theorem skipConditional_of_elseIf {rest : List Char}
    (found : afterKeyword? "else" (skipSpace (skipBody (skipCall s))) = some t)
    (more : afterKeyword? "if" (skipSpace t) = some rest) :
    skipConditional s = skipConditional rest := by
  rw [skipConditional]
  split
  · next missing => simp [found] at missing
  · next other same =>
    cases found.symm.trans same
    split
    · next missing => simp [more] at missing
    · next other' same' =>
      cases more.symm.trans same'
      rfl

theorem skipAlternative_of_if (found : afterKeyword? "if" (skipSpace s) = some t) :
    skipAlternative s = skipConditional t := by
  rw [skipAlternative, found]

theorem skipAlternative_of_body (absent : afterKeyword? "if" (skipSpace s) = none) :
    skipAlternative s = skipBody s := by
  rw [skipAlternative, absent]

/-- A conditional is its test and its first body, and the alternative behind its `else`. -/
theorem skipConditional_eq (s : List Char) :
    skipConditional s =
      match afterKeyword? "else" (skipSpace (skipBody (skipCall s))) with
      | none => skipBody (skipCall s)
      | some r => skipAlternative r := by
  cases found : afterKeyword? "else" (skipSpace (skipBody (skipCall s))) with
  | none => exact skipConditional_of_alone found
  | some r =>
    cases more : afterKeyword? "if" (skipSpace r) with
    | none => exact (skipConditional_of_else found more).trans (skipAlternative_of_body more).symm
    | some rest =>
      exact (skipConditional_of_elseIf found more).trans (skipAlternative_of_if more).symm

/-- An `else` is looked for across white space, and no further than the seam. -/
theorem keeps_skipConditional : Keeps skipConditional := by
  have body : Keeps (skipBody ∘ skipCall) := keeps_skipBody.comp keeps_skipCall skipBody_suffix
  intro u u' s s' seam upto longer
  have first := body seam upto
    (Nat.le_trans longer (skipConditional_suffix_body s).length_le)
  fun_induction skipConditional s generalizing s' with
  | case1 s absent =>
    have absent' := first.keyword_absent seam isWord_else absent
    rw [skipConditional_of_alone absent']
    exact first
  | case2 s t found absent =>
    have before : u.length ≤ t.length := Nat.le_trans longer (skipBody_suffix t).length_le
    obtain ⟨t', found', behind⟩ := first.keyword_found seam isWord_else found before
    have absent' := behind.keyword_absent seam isWord_if absent
    rw [skipConditional_of_else found' absent']
    exact keeps_skipBody seam behind longer
  | case3 s t found rest more _ ih =>
    have inner : u.length ≤ rest.length :=
      Nat.le_trans longer (skipConditional_suffix rest).length_le
    have before : u.length ≤ t.length := Nat.le_trans inner
      ((afterKeyword?_suffix more).trans (skipSpace_suffix t)).length_le
    obtain ⟨t', found', behind⟩ := first.keyword_found seam isWord_else found before
    obtain ⟨rest', more', onward⟩ := behind.keyword_found seam isWord_if more inner
    rw [skipConditional_of_elseIf found' more']
    exact ih onward longer (body seam onward
      (Nat.le_trans longer (skipConditional_suffix_body rest).length_le))

theorem keeps_skipAlternative : Keeps skipAlternative := by
  intro u u' s s' seam upto longer
  cases found : afterKeyword? "if" (skipSpace s) with
  | none =>
    have absent' := upto.keyword_absent seam isWord_if found
    rw [skipAlternative_of_body found] at longer ⊢
    rw [skipAlternative_of_body absent']
    exact keeps_skipBody seam upto longer
  | some t =>
    rw [skipAlternative_of_if found] at longer ⊢
    obtain ⟨t', found', behind⟩ := upto.keyword_found seam isWord_if found
      (Nat.le_trans longer (skipConditional_suffix t).length_le)
    rw [skipAlternative_of_if found']
    exact keeps_skipConditional seam behind longer

theorem skipMethod_of_brace (body : skipSpace (skipCall s) = '{' :: t) :
    skipMethod s = skipBalanced '{' '}' 0 none ('{' :: t) := by
  simp [skipMethod, body]

/-- A body is looked for across white space, and no further than the seam. -/
theorem keeps_skipMethod : Keeps skipMethod := by
  intro u u' s s' seam upto longer
  have short : skipMethod s <:+ skipCall s := by
    unfold skipMethod
    split
    · next h => exact (skipBalanced_suffix ..).trans (h ▸ skipSpace_suffix _)
    · exact List.suffix_refl _
  have signature := keeps_skipCall seam upto (Nat.le_trans longer short.length_le)
  have ahead := signature.skipSpace seam
  unfold skipMethod at longer ⊢
  generalize skipSpace (skipCall s) = body at ahead longer ⊢
  generalize skipSpace (skipCall s') = body' at ahead ⊢
  split at longer
  · next rest =>
    have before : u.length ≤ rest.length :=
      Nat.le_trans longer (skipBalanced_cons_suffix ..).length_le
    rcases ahead with ahead | ⟨passed, -⟩
    · obtain ⟨t', rfl, behind⟩ := ahead.behind (List.suffix_refl rest) before
      exact keeps_skipBalanced '{' '}' 0 none seam (.cons '{' behind) longer
    · rw [List.length_cons] at passed
      omega
  · next absent =>
    rcases ahead with ahead | ⟨-, rest, rfl⟩
    · split
      · next rest => exact (ahead.first_ne seam absent rest rfl).elim
      · exact signature
    · exact signature

end BuildScript
