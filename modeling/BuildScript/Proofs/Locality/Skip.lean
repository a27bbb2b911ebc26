import BuildScript.Proofs.Locality.Ahead

/-!
# Skipping looks no further than a mark

Two texts that are the same through a brace are skipped alike, as long as what is left still holds
that brace.  No look at a second character, at a keyword or across white space goes past it.  The
same holds of a line break, if one of the texts goes on with a comment where the other may go on
with what a look across white space asks for.
-/

namespace BuildScript

open Text

/-- The texts are the same through a mark, behind which they go on as `r` and as `r'`. -/
inductive Agree (r r' : List Char) : List Char → List Char → Prop where
  | mark {c : Char} (h : IsMark r' c) : Agree r r' (c :: r) (c :: r')
  | cons (c : Char) {s s' : List Char} (h : Agree r r' s s') : Agree r r' (c :: s) (c :: s')

variable {r r' s s' t t' : List Char}

/-- Texts that are the same through a mark are the same up to the seam that the mark makes. -/
theorem Agree.upto (h : Agree r r' s s') :
    ∃ c, IsMark r' c ∧ Upto (c :: r) (c :: r') s s' := by
  induction h with
  | @mark c h => exact ⟨c, h, .here⟩
  | cons d h ih =>
    obtain ⟨c, mark, upto⟩ := ih
    exact ⟨c, mark, .cons d upto⟩

theorem Upto.agree {c : Char} (h : Upto (c :: r) (c :: r') s s') (mark : IsMark r' c) :
    Agree r r' s s' := by
  induction h with
  | here => exact .mark mark
  | cons d h ih => exact .cons d ih

namespace Agree

theorem length_lt (h : Agree r r' s s') : r.length < s.length := by
  induction h with
  | mark => simp
  | cons c h ih => exact Nat.lt_succ_of_lt ih

theorem prepend (p : List Char) (h : Agree r r' s s') : Agree r r' (p ++ s) (p ++ s') := by
  induction p with
  | nil => exact h
  | cons c p ih => exact cons c ih

theorem unique {s'' : List Char} (h : Agree r r' s s') (h' : Agree r r' s s'') : s' = s'' := by
  induction h generalizing s'' with
  | mark =>
    cases h' with
    | mark => rfl
    | cons _ h' => exact absurd h'.length_lt (Nat.lt_irrefl _)
  | cons c h ih =>
    cases h' with
    | mark => exact absurd h.length_lt (Nat.lt_irrefl _)
    | cons _ h' => exact congrArg (List.cons c) (ih h')

theorem exists_cons {c : Char} (h : Agree r r' (c :: t) s') : ∃ t', s' = c :: t' := by
  cases h with
  | mark => exact ⟨_, rfl⟩
  | cons => exact ⟨_, rfl⟩

theorem at_mark {c : Char} (h : Agree r r' (c :: r) s') : s' = c :: r' := by
  cases h with
  | mark => rfl
  | cons _ h => exact absurd h.length_lt (Nat.lt_irrefl _)

/-- What is read before texts that agree is the same. -/
theorem eq_append {p : List Char} (h : Agree r r' (p ++ t) s') (left : Agree r r' t t') :
    s' = p ++ t' :=
  h.unique (left.prepend p)

/-- A character that one text does not begin with does not begin the other. -/
theorem first_ne (h : Agree r r' s s') {c : Char} (absent : ∀ rest, s = c :: rest → False) :
    ∀ rest, s' = c :: rest → False := by
  intro rest same
  cases h with
  | mark =>
    cases same
    exact absent r rfl
  | cons _ h =>
    cases same
    exact absent _ rfl

/-- A first character whose text is left with the mark is not that mark. -/
theorem behind {c : Char} {left : List Char} (h : Agree r r' (c :: t) s') (suffix : left <:+ t)
    (longer : r.length < left.length) : ∃ t', s' = c :: t' ∧ Agree r r' t t' := by
  have := suffix.length_le
  cases h with
  | mark => omega
  | cons _ h => exact ⟨_, rfl, h⟩

end Agree

/-- What the function leaves is determined by the text through a mark, if it leaves that mark. -/
def Local (f : List Char → List Char) : Prop :=
  ∀ ⦃r r' s s' : List Char⦄, Agree r r' s s' → r.length < (f s).length → Agree r r' (f s) (f s')

theorem Local.comp {f g : List Char → List Char} (hf : Local f) (hg : Local g)
    (suffix : ∀ s, f s <:+ s) : Local (f ∘ g) := by
  intro r r' s s' agree longer
  have before : r.length < (g s).length := Nat.lt_of_lt_of_le longer (suffix (g s)).length_le
  exact hf (hg agree before) longer

theorem Keeps.local {f : List Char → List Char} (h : Keeps f) : Local f := by
  intro r r' s s' agree longer
  obtain ⟨c, mark, upto⟩ := agree.upto
  exact (h (.mark mark) upto longer).agree mark

/-! ## Looks ahead -/

/-- A search for a character of a class that no mark belongs to ends at the mark. -/
theorem Agree.dropWhile {p : Char → Bool}
    (stops : p '\n' = false ∧ p '\r' = false ∧ p '{' = false ∧ p '}' = false)
    (agree : Agree r r' s s') :
    s'.takeWhile p = s.takeWhile p ∧ Agree r r' (s.dropWhile p) (s'.dropWhile p) := by
  induction agree with
  | @mark c h =>
    have stop : p c = false := h.elim (motive := (p · = false)) stops
    simp only [List.takeWhile_cons, List.dropWhile_cons, stop]
    exact ⟨rfl, .mark h⟩
  | cons c h ih =>
    simp only [List.takeWhile_cons, List.dropWhile_cons]
    cases p c with
    | true => exact ⟨congrArg (List.cons c) ih.1, ih.2⟩
    | false => exact ⟨rfl, .cons c h⟩

theorem Agree.skipIndent (agree : Agree r r' s s') : Agree r r' (skipIndent s) (skipIndent s') :=
  (agree.dropWhile (by decide)).2

/-- A look across white space ends at the mark, or it goes past a line break and finds a comment in
one of the texts. -/
theorem Agree.skipSpace (agree : Agree r r' s s') :
    Agree r r' (skipSpace s) (skipSpace s') ∨
      (BuildScript.skipSpace s).length ≤ r.length ∧
        ∃ rest, BuildScript.skipSpace s' = '/' :: rest := by
  obtain ⟨c, mark, upto⟩ := agree.upto
  rcases upto.skipSpace (.mark mark) with ahead | ⟨short, comment⟩
  · exact .inl (ahead.agree mark)
  · exact .inr ⟨Nat.le_of_lt_succ short, comment⟩

theorem literalStep?_agree {quote next : Option Char} {c : Char} {rest : List Char}
    (h : literalStep? quote c t = some (next, rest)) (agree : Agree r r' t t')
    (longer : r.length < rest.length) :
    ∃ rest', literalStep? quote c t' = some (next, rest') ∧ Agree r r' rest rest' := by
  obtain ⟨d, mark, upto⟩ := agree.upto
  obtain ⟨rest', taken, behind⟩ := literalStep?_upto (.mark mark) h upto longer
  exact ⟨rest', taken, behind.agree mark⟩

/-- A keyword that does not follow in one text does not follow in the other. -/
theorem Agree.keyword_absent {keyword : String} (word : IsWord keyword.toList)
    (agree : Agree r r' s s') (absent : afterKeyword? keyword (BuildScript.skipSpace s) = none) :
    afterKeyword? keyword (BuildScript.skipSpace s') = none := by
  obtain ⟨c, mark, upto⟩ := agree.upto
  exact upto.keyword_absent (.mark mark) word absent

/-- A keyword that is found before the mark is found in both texts. -/
theorem Agree.keyword_found {keyword : String} (word : IsWord keyword.toList)
    (agree : Agree r r' s s') (found : afterKeyword? keyword (BuildScript.skipSpace s) = some t)
    (longer : r.length < t.length) :
    ∃ t', afterKeyword? keyword (BuildScript.skipSpace s') = some t' ∧ Agree r r' t t' := by
  obtain ⟨c, mark, upto⟩ := agree.upto
  obtain ⟨t', found', behind⟩ := upto.keyword_found (.mark mark) word found longer
  exact ⟨t', found', behind.agree mark⟩

/-! ## Skipping -/

theorem margin_local : Local margin := keeps_margin.local

theorem afterCode_local (c : Char) : Local (afterCode c) := (keeps_afterCode c).local

theorem skipCall_local : Local skipCall := keeps_skipCall.local

theorem skipBlankLines_local : Local skipBlankLines := keeps_skipBlankLines.local

theorem skipBody_local : Local skipBody := keeps_skipBody.local

end BuildScript
