import BuildScript.Proofs.Reading
import BuildScript.Proofs.Locality.Skip

/-!
# Reading looks no further than a mark

A block that ends by its `}` gives the same value and ends at the same place whatever follows that
`}`, and a `{` that exceeds the limit on nesting does so whatever follows it.  Both come from one
fact about steps: texts that agree through a mark are read alike until that mark.  That holds of
every seam, so of a comment at which one text goes on in another way as well.
-/

namespace BuildScript

open Text

variable {u u' s s' t t' : List Char}

/-! ## Definitions and lists -/

theorem definition_upto (seam : Seam u u') (upto : Upto u u' s s')
    (longer : u.length ≤ (definition s).2.length) :
    (definition s').1 = (definition s).1 ∧ Upto u u' (definition s).2 (definition s').2 := by
  have short : (definition s).2 <:+ s.dropWhile fun c => !endsWords c := by
    simp only [definition]
    split
    · next h => exact h ▸ List.suffix_cons _ _
    · next h => exact h ▸ skipMethod_suffix _
    · exact List.suffix_refl _
  have before := Nat.le_trans longer short.length_le
  have words := upto.takeWhile seam before
  have ahead := keeps_dropWhile _ seam upto before
  simp only [definition, words] at longer ⊢
  generalize s.dropWhile (fun c => !endsWords c) = rest at ahead longer ⊢
  generalize s'.dropWhile (fun c => !endsWords c) = rest' at ahead ⊢
  split at longer
  · obtain ⟨t', rfl, behind⟩ := ahead.behind (List.suffix_refl _) longer
    exact ⟨rfl, behind⟩
  · obtain ⟨t', rfl⟩ := ahead.exists_cons seam (by decide)
    exact ⟨rfl, keeps_skipMethod seam ahead longer⟩
  · next eq paren =>
    split
    · next rest => exact (ahead.first_ne seam eq rest rfl).elim
    · next rest => exact (ahead.first_ne seam paren rest rfl).elim
    · exact ⟨rfl, ahead⟩

/-- A list that leaves the seam has its `]` before it. -/
theorem listItems_upto (seam : Seam u u') (upto : Upto u u' s s')
    (longer : u.length ≤ (listItems s).2.length) :
    (listItems s').1 = (listItems s).1 ∧ Upto u u' (listItems s).2 (listItems s').2 := by
  have before := Nat.le_trans longer (List.tail_suffix (s.dropWhile (· != ']'))).length_le
  have ahead := keeps_dropWhile (· != ']') seam upto before
  refine ⟨?_, keeps_tail seam ahead longer⟩
  simp only [listItems, upto.takeWhile seam before]

/-! ## Dependencies -/

/-- The text behind the `}` that ends a block of dependencies, if a `}` ends it. -/
def afterStatements? (depth : Nat) (quote : Option Char) : List Char → Option (List Char)
  | [] => none
  | c :: r =>
    if isLineBreak c then
      have := (margin_suffix r).length_le
      afterStatements? depth none (margin r)
    else if inLiteral quote c then afterStatements? depth (quoteAfter quote c) r
    else if c == '(' || c == '[' || c == '{' then afterStatements? (depth + 1) none r
    else if c == '}' && depth == 0 then some r
    else if c == ')' || c == ']' || c == '}' then afterStatements? (depth - 1) none r
    else afterStatements? depth none r
  termination_by s => s.length

section

variable {depth depth' : Nat} {quote quote' : Option Char} {c : Char} {rest : List Char}

theorem afterStatements?_of_lineBreak (lineBreak : isLineBreak c = true) (r : List Char) :
    afterStatements? depth quote (c :: r) = afterStatements? depth none (margin r) := by
  rw [afterStatements?, if_pos lineBreak]

theorem afterStatements?_of_closing (h : statementRole depth quote c = .closing) (r : List Char) :
    afterStatements? depth quote (c :: r) = some r := by
  unfold statementRole at h
  rw [afterStatements?]
  repeat' split at h
  all_goals simp_all

theorem afterStatements?_of_inside (h : statementRole depth quote c = .inside depth' quote')
    (r : List Char) : afterStatements? depth quote (c :: r) = afterStatements? depth' quote' r := by
  unfold statementRole at h
  rw [afterStatements?]
  repeat' split at h
  all_goals simp_all

theorem statements_snd (depth : Nat) (quote : Option Char) (current : String) (s : List Char) :
    (statements depth quote current s).2 = (afterStatements? depth quote s).getD [] := by
  induction depth, quote, s using statement_induction generalizing current with
  | nil depth quote =>
    rw [statements, afterStatements?]
    rfl
  | lineBreak depth quote c r lineBreak ih =>
    obtain ⟨current', before, onward⟩ := statements_lineBreak depth current lineBreak
    rw [onward, afterStatements?_of_lineBreak lineBreak, ih]
  | closing depth quote c r role =>
    rw [statements_of_closing role, afterStatements?_of_closing role]
    rfl
  | inside depth quote c r depth' quote' role ih =>
    rw [statements_of_inside role, afterStatements?_of_inside role, ih]

/-- The end of a block of dependencies is a `}` of its text. -/
theorem eq_append_of_afterStatements? (h : afterStatements? depth quote s = some rest) :
    ∃ p, s = p ++ '}' :: rest := by
  have onward : ∀ {c t left}, left <:+ t → (∃ p, left = p ++ '}' :: rest) →
      ∃ p, c :: t = p ++ '}' :: rest := by
    rintro c t left ⟨skipped, rfl⟩ ⟨p, rfl⟩
    exact ⟨c :: (skipped ++ p), by simp⟩
  induction depth, quote, s using statement_induction with
  | nil =>
    rw [afterStatements?] at h
    cases h
  | lineBreak depth quote c r lineBreak ih =>
    rw [afterStatements?_of_lineBreak lineBreak] at h
    exact onward (margin_suffix r) (ih depth h)
  | closing depth quote c r role =>
    rw [afterStatements?_of_closing role] at h
    cases h
    exact ⟨[], by rw [(eq_of_statementRole_closing role).1]; rfl⟩
  | inside depth quote c r depth' quote' role ih =>
    rw [afterStatements?_of_inside role] at h
    exact onward (List.suffix_refl r) (ih h)

/-- Statements that end no sooner than at the seam are the same in both texts, and so is the place
where they end. -/
theorem statements_upto (seam : Seam u u') (ends : afterStatements? depth quote s = some rest)
    (upto : Upto u u' s s') (holds : u.length ≤ rest.length + 1) (current : String) :
    ∃ rest', statements depth quote current s' = ((statements depth quote current s).1, rest') ∧
      (Upto u u' rest rest' ∨ u = '}' :: rest ∧ u' = '}' :: rest') := by
  have beyond : ∀ {depth quote t}, afterStatements? depth quote t = some rest →
      u.length ≤ t.length := by
    intro depth quote t ends
    obtain ⟨p, rfl⟩ := eq_append_of_afterStatements? ends
    rw [List.length_append, List.length_cons]
    omega
  induction depth, quote, s using statement_induction generalizing s' current with
  | nil =>
    rw [afterStatements?] at ends
    cases ends
  | lineBreak depth quote c t lineBreak ih =>
    rw [afterStatements?_of_lineBreak lineBreak] at ends
    obtain ⟨t', rfl, behind⟩ := upto.behind (margin_suffix t) (beyond ends)
    obtain ⟨current', before, onward⟩ := statements_lineBreak depth current lineBreak
    obtain ⟨rest', same, left⟩ := ih depth ends (keeps_margin seam behind (beyond ends)) current'
    rw [onward, onward, same]
    exact ⟨rest', rfl, left⟩
  | closing depth quote c t role =>
    rw [afterStatements?_of_closing role] at ends
    cases ends
    obtain ⟨rfl, -⟩ := eq_of_statementRole_closing role
    have last := statements_of_closing role current
    rw [last]
    cases upto with
    | here =>
      obtain ⟨t', rfl⟩ := Upto.exists_cons seam .here (by decide)
      exact ⟨t', last t', .inr ⟨rfl, rfl⟩⟩
    | cons _ behind => exact ⟨_, last _, .inl behind⟩
  | inside depth quote c t depth' quote' role ih =>
    rw [afterStatements?_of_inside role] at ends
    obtain ⟨t', rfl, behind⟩ := upto.behind (List.suffix_refl t) (beyond ends)
    rw [statements_of_inside role, statements_of_inside role]
    exact ih ends behind _

end

/-- The text behind the `}` of a block of dependencies, from behind its `{`, if a `}` ends it. -/
def afterDependencies? (s : List Char) : Option (List Char) := afterStatements? 0 none (margin s)

theorem blockDependencies_upto (seam : Seam u u') {rest : List Char}
    (ends : afterDependencies? s = some rest) (upto : Upto u u' s s')
    (holds : u.length ≤ rest.length + 1) :
    ∃ rest', blockDependencies s' = ((blockDependencies s).1, rest') ∧
      (Upto u u' rest rest' ∨ u = '}' :: rest ∧ u' = '}' :: rest') := by
  obtain ⟨p, text⟩ := eq_append_of_afterStatements? ends
  have longer : u.length ≤ (margin s).length := by
    rw [text, List.length_append, List.length_cons]
    omega
  obtain ⟨rest', same, left⟩ :=
    statements_upto seam ends (keeps_margin seam upto longer) holds ""
  refine ⟨rest', ?_, left⟩
  simp only [blockDependencies, blockStatements, same]

theorem blockDependencies_agree {r r' rest : List Char} (ends : afterDependencies? s = some rest)
    (agree : Agree r r' s s') (holds : r.length ≤ rest.length) :
    ∃ rest', blockDependencies s' = ((blockDependencies s).1, rest') ∧
      (Agree r r' rest rest' ∨ rest = r ∧ rest' = r') := by
  obtain ⟨c, mark, upto⟩ := agree.upto
  obtain ⟨rest', same, left⟩ :=
    blockDependencies_upto (.mark mark) ends upto (Nat.succ_le_succ holds)
  refine ⟨rest', same, ?_⟩
  rcases left with further | ⟨here, here'⟩
  · exact .inl (further.agree mark)
  · exact .inr ⟨(List.cons.inj here).2.symm, (List.cons.inj here').2.symm⟩

/-! ## Steps -/

/-- The steps come to the same, and the texts that they leave are the same up to the seam. -/
inductive StepUpto (u u' : List Char) : Step → Step → Prop where
  | next (st : State) {s s' : List Char} (h : Upto u u' s s') :
    StepUpto u u' (.next st s) (.next st s')
  | closed (doc : Document) {s s' : List Char} (h : Upto u u' s s') :
    StepUpto u u' (.closed doc s) (.closed doc s')
  | tooDeep {s s' : List Char} (h : Upto u u' s s') : StepUpto u u' (.tooDeep s) (.tooDeep s')

variable {nesting : Nesting} {st : State}

theorem openBlock_upto (seam : Seam u u') {key : String} (upto : Upto u u' t t')
    (longer : u.length ≤ (openBlock nesting st key t).rest.length) :
    StepUpto u u' (openBlock nesting st key t) (openBlock nesting st key t') := by
  unfold openBlock at longer ⊢
  split
  · exact .tooDeep upto
  · next room =>
    rw [if_neg room] at longer
    split
    · next special =>
      rw [if_pos special] at longer
      have left : (blockDependencies t).2 = (afterDependencies? t).getD [] := statements_snd ..
      cases ends : afterDependencies? t with
      | none =>
        rw [ends] at left
        exact absurd (by simpa [Step.rest, left] using longer) seam.not_le_zero
      | some rest =>
        rw [ends] at left
        have more : u.length ≤ rest.length := by simpa [Step.rest, left] using longer
        obtain ⟨rest', same, onward⟩ :=
          blockDependencies_upto seam ends upto (Nat.le_succ_of_le more)
        rcases onward with onward | ⟨rfl, -⟩
        · simp only [same, left]
          exact .next _ onward
        · exact absurd more (Nat.not_succ_le_self _)
    · next other =>
      rw [if_neg other] at longer
      exact .next _ (keeps_margin seam upto longer)

theorem closeBlock_upto (seam : Seam u u') (upto : Upto u u' t t')
    (longer : u.length ≤ (closeBlock nesting st t).rest.length) :
    StepUpto u u' (closeBlock nesting st t) (closeBlock nesting st t') := by
  unfold closeBlock at longer ⊢
  split
  · exact .next _ upto
  · next outermost =>
    split
    · next script =>
      rw [outermost] at longer
      simp only [script, if_true] at longer
      exact .next _ (keeps_margin seam upto longer)
    · exact .closed _ upto

theorem callStep_upto (seam : Seam u u') {token : String} (upto : Upto u u' s s')
    (longer : u.length ≤ (callStep st token s).rest.length) :
    StepUpto u u' (callStep st token s) (callStep st token s') := by
  have short : (callStep st token s).rest <:+ skipCall s := by
    simp only [callStep]
    split
    · next h => exact h ▸ skipIndent_suffix _
    · exact List.suffix_refl _
  have behind := keeps_skipCall seam upto (Nat.le_trans longer short.length_le)
  obtain ⟨call, text⟩ := skipCall_suffix s
  have text' : s' = call ++ skipCall s' := Upto.eq_append (by rwa [text]) behind
  have spelled : ∀ {whole left : List Char}, whole = call ++ left →
      whole.take (whole.length - left.length) = call := by
    rintro _ left rfl
    exact take_length_sub call left
  have ahead := behind.skipIndent seam
  simp only [callStep, spelled text.symm, spelled text']
  generalize skipIndent (skipCall s) = body at ahead ⊢
  generalize skipIndent (skipCall s') = body' at ahead ⊢
  split
  · obtain ⟨t', rfl⟩ := ahead.exists_cons seam (by decide)
    exact .next _ ahead
  · next absent =>
    split
    · next rest => exact (ahead.first_ne seam absent rest rfl).elim
    · exact .next _ behind

theorem definedStep_upto (seam : Seam u u') {c : Char} (upto : Upto u u' t t')
    (longer : u.length ≤ (KeyRole.definedStep st (definition (c :: t))).rest.length) :
    StepUpto u u' (KeyRole.definedStep st (definition (c :: t)))
      (KeyRole.definedStep st (definition (c :: t'))) := by
  have declared := definition_upto seam (.cons c upto)
  generalize definition (c :: t) = left at declared longer ⊢
  generalize definition (c :: t') = left' at declared ⊢
  obtain ⟨name, rest⟩ := left
  obtain ⟨name', rest'⟩ := left'
  cases name with
  | none =>
    obtain ⟨rfl, behind⟩ := declared longer
    exact .next _ behind
  | some name =>
    obtain ⟨rfl, behind⟩ := declared longer
    exact .next _ behind

theorem keyStep_upto (seam : Seam u u') {token : String} {c : Char} (upto : Upto u u' t t')
    (longer : u.length ≤ (keyStep st token c t).rest.length) :
    StepUpto u u' (keyStep st token c t) (keyStep st token c t') := by
  rw [keyStep_eq_role] at longer ⊢
  rw [keyStep_eq_role]
  generalize keyRole st.kind token c = role at longer ⊢
  cases role with
  | inWord => exact .next _ upto
  | leading => exact .next _ upto
  | setting => exact .next _ upto
  | call => exact callStep_upto seam (.cons c upto) longer
  | conditional => exact .next _ (keeps_skipConditional seam (.cons c upto) longer)
  | alternative => exact .next _ (keeps_skipAlternative seam (.cons c upto) longer)
  | definition => exact definedStep_upto seam upto longer

theorem valueStep_upto (seam : Seam u u') {key raw : String} {c : Char} (upto : Upto u u' t t')
    (longer : u.length ≤ (valueStep st key raw c t).rest.length) :
    StepUpto u u' (valueStep st key raw c t) (valueStep st key raw c t') := by
  unfold valueStep at longer ⊢
  split
  · exact .next _ upto
  · next started =>
    rw [if_neg started] at longer
    split
    · next list =>
      rw [if_pos list] at longer
      obtain ⟨items, behind⟩ := listItems_upto seam upto longer
      simp only [items]
      exact .next _ behind
    · exact .next _ upto

/-- A step that leaves the seam is the same in both texts. -/
theorem step_upto (seam : Seam u u') (nesting : Nesting) (st : State) (c : Char)
    (upto : Upto u u' t t')
    (longer : u.length ≤ (step nesting st c t).rest.length) :
    StepUpto u u' (step nesting st c t) (step nesting st c t') := by
  rw [step_eq_role] at longer ⊢
  rw [step_eq_role]
  generalize st.role c = role at longer ⊢
  cases role with
  | lineBreak => exact .next _ (keeps_margin seam upto longer)
  | closing => exact closeBlock_upto seam upto longer
  | behind => exact .next _ upto
  | alternative => exact .next _ (keeps_skipAlternative seam (.cons c upto) longer)
  | opening key => exact openBlock_upto seam upto longer
  | inKey token => exact keyStep_upto seam upto longer
  | inValue key raw => exact valueStep_upto seam upto longer

/-- The steps come to the same, and the texts that they leave agree through the mark. -/
inductive StepAgree (r r' : List Char) : Step → Step → Prop where
  | next (st : State) {s s' : List Char} (h : Agree r r' s s') :
    StepAgree r r' (.next st s) (.next st s')
  | closed (doc : Document) {s s' : List Char} (h : Agree r r' s s') :
    StepAgree r r' (.closed doc s) (.closed doc s')
  | tooDeep {s s' : List Char} (h : Agree r r' s s') : StepAgree r r' (.tooDeep s) (.tooDeep s')

/-- A step that leaves the mark is the same in both texts. -/
theorem step_agree {r r' : List Char} (nesting : Nesting) (st : State) (c : Char)
    (agree : Agree r r' t t') (longer : r.length < (step nesting st c t).rest.length) :
    StepAgree r r' (step nesting st c t) (step nesting st c t') := by
  obtain ⟨d, mark, upto⟩ := agree.upto
  have alike := step_upto (.mark mark) nesting st c upto longer
  generalize step nesting st c t = taken at alike ⊢
  generalize step nesting st c t' = taken' at alike ⊢
  cases alike with
  | next st h => exact .next st (h.agree mark)
  | closed doc h => exact .closed doc (h.agree mark)
  | tooDeep h => exact .tooDeep (h.agree mark)

end BuildScript
