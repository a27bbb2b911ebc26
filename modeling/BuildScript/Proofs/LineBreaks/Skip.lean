import BuildScript.Proofs.LineBreaks.Text
import BuildScript.Proofs.LineBreaks.Joins
import BuildScript.Proofs.Skipped.Code

/-!
# Skipped text with other line breaks

A carriage return before a line feed ends the line, and the line feed then ends an empty line.  So
text that joins no lines is skipped alike with and without carriage returns.
-/

namespace BuildScript

open Text

variable {s t r : List Char} {c : Char} {quote : Option Char}

/-! ## Margins -/

theorem crlf_lineFeed (s : List Char) : crlf ('\n' :: s) = '\r' :: '\n' :: crlf s := rfl

theorem crlf_cons (h : c ≠ '\n') (s : List Char) : crlf (c :: s) = c :: crlf s :=
  Breaks.crlf.write_cons h s

theorem crlf_append (s t : List Char) : crlf (s ++ t) = crlf s ++ crlf t :=
  Breaks.crlf.write_append s t

theorem skipIndent_crlf (s : List Char) : skipIndent (crlf s) = crlf (skipIndent s) :=
  Breaks.crlf.dropWhile_write (by decide) s

theorem skipSpace_crlf (s : List Char) : skipSpace (crlf s) = crlf (skipSpace s) :=
  Breaks.crlf.dropWhile_write (by decide) s

theorem skipLine_crlf (s : List Char) : skipLine (crlf s) = crlf (skipLine s) :=
  Breaks.crlf.dropWhile_write (by decide) s

/-- A text that begins with the character also does so with carriage returns. -/
theorem exists_of_crlf_eq_cons (other : c ≠ '\r') (h : crlf s = c :: t) :
    ∃ r, s = c :: r ∧ t = crlf r := by
  cases s with
  | nil => cases h
  | cons d r =>
    by_cases lineFeed : d = '\n'
    · subst lineFeed
      exact absurd (List.cons.inj h).1.symm other
    · rw [crlf_cons lineFeed] at h
      obtain ⟨rfl, rfl⟩ := List.cons.inj h
      exact ⟨r, rfl, rfl⟩

theorem margin_crlf_and_blockComment_crlf :
    (∀ s, margin (crlf s) = crlf (margin s)) ∧
      ∀ s, blockComment (crlf s) = crlf (blockComment s) := by
  apply margin.mutual_induct (fun s => margin (crlf s) = crlf (margin s))
    (fun s => blockComment (crlf s) = crlf (blockComment s))
  case case1 =>
    intro r
    exact skipLine_crlf r
  case case2 =>
    intro r ih
    exact ih
  case case3 =>
    intro c r _ _ indent ih
    have inLine : c ≠ '\n' := by rintro rfl; cases indent
    rw [crlf_cons inLine, margin_cons_of_isIndent indent, margin_cons_of_isIndent indent, ih]
  case case4 =>
    intro c r line block other
    have here : margin (c :: r) = c :: r := by rw [margin.eq_3 c r line block, if_neg other]
    rw [here]
    by_cases lineFeed : c = '\n'
    · subst lineFeed
      exact margin_lineBreak (by decide) _
    · rw [crlf_cons lineFeed, margin.eq_3 c (crlf r), if_neg other]
      · intro t slash second
        obtain ⟨r', rfl, -⟩ := exists_of_crlf_eq_cons (by decide) second
        exact line r' slash rfl
      · intro t slash second
        obtain ⟨r', rfl, -⟩ := exists_of_crlf_eq_cons (by decide) second
        exact block r' slash rfl
  case case5 => rfl
  case case6 =>
    intro r ih
    exact ih
  case case7 =>
    intro c r open_ ih
    rw [blockComment.eq_2 c r open_]
    by_cases lineFeed : c = '\n'
    · subst lineFeed
      rw [crlf_lineFeed, blockComment_cons_of_ne (by decide), blockComment_cons_of_ne (by decide),
        ih]
    · rw [crlf_cons lineFeed, blockComment.eq_2 c (crlf r), ih]
      intro t star slash
      obtain ⟨r', rfl, -⟩ := exists_of_crlf_eq_cons (by decide) slash
      exact open_ r' star rfl
  case case8 => rfl

theorem margin_crlf (s : List Char) : margin (crlf s) = crlf (margin s) :=
  margin_crlf_and_blockComment_crlf.1 s

/-- A carriage return leaves its line feed, which ends an empty line. -/
theorem margin_lineFeed_crlf (s : List Char) : margin ('\n' :: crlf s) = '\n' :: crlf s :=
  margin_lineBreak (by decide) _

theorem afterCode_crlf (c : Char) (r : List Char) :
    afterCode c (crlf r) = crlf (afterCode c r) := by
  unfold afterCode
  split
  · exact margin_crlf r
  · rfl

/-! ## Brackets -/

theorem ne_lineFeed_of_literalStep? {next : Option Char} {rest : List Char}
    (h : literalStep? quote c r = some (next, rest)) : c ≠ '\n' := by
  rintro rfl
  cases (literalStep?_lineBreak (by decide) quote r).symm.trans h

/-- A character of a literal that takes no line feed with it is read alike. -/
theorem literalStep?_crlf {next : Option Char} {rest : List Char}
    (taken : literalStep? quote c r = some (next, rest)) (plain : takesLineFeed quote c r = false) :
    literalStep? quote c (crlf r) = some (next, crlf rest) := by
  unfold literalStep? at taken ⊢
  cases quote with
  | none =>
    simp only at taken ⊢
    split at taken
    · next opens =>
      cases taken
      exact if_pos opens
    · cases taken
  | some q =>
    simp only at taken ⊢
    split at taken
    · cases taken
    · next inside =>
      rw [if_neg inside]
      split at taken
      · next escape =>
        cases taken
        rw [if_pos escape]
        cases r with
        | nil => rfl
        | cons d r =>
          have other : d ≠ '\n' := by
            rintro rfl
            simp [takesLineFeed, eq_of_beq escape] at plain
          rw [crlf_cons other]
          rfl
      · next noEscape =>
        rw [if_neg noEscape]
        split at taken
        · next closes =>
          cases taken
          exact if_pos closes
        · next goesOn =>
          cases taken
          exact if_neg goesOn

theorem skipBalanced_crlf {opening closing : Char}
    (inLine : isLineBreak opening = false ∧ isLineBreak closing = false) {depth : Nat}
    (plain : balancedJoins opening closing depth quote s = false) :
    skipBalanced opening closing depth quote (crlf s) =
      crlf (skipBalanced opening closing depth quote s) := by
  have ne_lineFeed : ∀ {bracket : Char}, isLineBreak bracket = false → bracket ≠ '\n' := by
    rintro bracket inLine rfl
    cases inLine
  fun_induction balancedJoins opening closing depth quote s with
  | case1 => rw [show crlf [] = [] from rfl, skipBalanced, crlf, Breaks.write_nil]
  | case2 depth quote c r next rest taken _ ih =>
    obtain ⟨here, onward⟩ := Bool.or_eq_false_iff.1 plain
    rw [crlf_cons (ne_lineFeed_of_literalStep? taken), skipBalanced_of_literal taken,
      skipBalanced_of_literal (literalStep?_crlf taken here)]
    exact ih onward
  | case3 depth quote c r code _ opens ih =>
    have other : c ≠ '\n' := eq_of_beq opens ▸ ne_lineFeed inLine.1
    rw [crlf_cons other, skipBalanced_of_code code,
      skipBalanced_of_code (literalStep?_eq_none code _), if_pos opens, if_pos opens]
    exact ih plain
  | case4 depth quote c r code _ opens closes last =>
    have other : c ≠ '\n' := eq_of_beq closes ▸ ne_lineFeed inLine.2
    rw [crlf_cons other, skipBalanced_of_code code,
      skipBalanced_of_code (literalStep?_eq_none code _), if_neg opens, if_neg opens,
      if_pos closes, if_pos closes, if_pos last, if_pos last]
  | case5 depth quote c r code _ opens closes more ih =>
    have other : c ≠ '\n' := eq_of_beq closes ▸ ne_lineFeed inLine.2
    rw [crlf_cons other, skipBalanced_of_code code,
      skipBalanced_of_code (literalStep?_eq_none code _), if_neg opens, if_neg opens,
      if_pos closes, if_pos closes, if_neg more, if_neg more]
    exact ih plain
  | case6 depth quote c r code _ opens closes ih =>
    by_cases lineFeed : c = '\n'
    · subst lineFeed
      rw [crlf_lineFeed, skipBalanced_lineBreak inLine (by decide), margin_lineFeed_crlf,
        skipBalanced_lineBreak inLine (by decide), margin_crlf,
        skipBalanced_lineBreak inLine (by decide)]
      exact ih plain
    · rw [crlf_cons lineFeed, skipBalanced_of_code code,
        skipBalanced_of_code (literalStep?_eq_none code _), if_neg opens, if_neg opens,
        if_neg closes, if_neg closes, afterCode_crlf]
      exact ih plain

theorem skipCall_crlf (plain : callJoins s = false) : skipCall (crlf s) = crlf (skipCall s) := by
  unfold callJoins at plain
  unfold skipCall
  rw [skipIndent_crlf]
  split
  · next t opens =>
    obtain ⟨r, same, rfl⟩ := exists_of_crlf_eq_cons (by decide) opens
    rw [same] at plain ⊢
    exact skipBalanced_crlf (by decide) plain
  · next closed =>
    split
    · next r opens => exact absurd (by rw [opens]; rfl) (closed (crlf r))
    · rfl

/-- Where lines are joined the texts part: the backslash takes the carriage return only, and the
literal ends at the line feed. -/
example : callJoins "('a\\\nb') x".toList = true ∧
    skipCall "('a\\\nb') x".toList = " x".toList ∧
    skipCall (crlf "('a\\\nb') x".toList) = [] := by
  refine ⟨?_, ?_, ?_⟩ <;> with_unfolding_all rfl

/-! ## Statements and bodies -/

theorem skipStatement_crlf {depth : Nat} (plain : statementJoins depth quote s = false) :
    skipStatement depth quote (crlf s) = crlf (skipStatement depth quote s) := by
  fun_induction statementJoins depth quote s with
  | case1 => rw [show crlf [] = [] from rfl, skipStatement, crlf, Breaks.write_nil]
  | case2 depth quote c r next rest taken _ ih =>
    obtain ⟨here, onward⟩ := Bool.or_eq_false_iff.1 plain
    rw [crlf_cons (ne_lineFeed_of_literalStep? taken), skipStatement_of_literal taken,
      skipStatement_of_literal (literalStep?_crlf taken here)]
    exact ih onward
  | case3 depth quote c r code _ ends =>
    rw [skipStatement_of_code code, if_pos ends]
    by_cases lineFeed : c = '\n'
    · subst lineFeed
      have ends' : (depth == 0 && (isLineBreak '\r' || '\r' == '}')) = true := ends
      rw [crlf_lineFeed, skipStatement_of_code (literalStep?_lineBreak (by decide) quote _),
        if_pos ends']
    · rw [crlf_cons lineFeed, skipStatement_of_code (literalStep?_eq_none code _), if_pos ends]
  | case4 depth quote c r code _ goesOn opens ih =>
    have other : c ≠ '\n' := by rintro rfl; cases opens
    rw [crlf_cons other, skipStatement_of_code code,
      skipStatement_of_code (literalStep?_eq_none code _), if_neg goesOn, if_neg goesOn,
      if_pos opens, if_pos opens]
    exact ih plain
  | case5 depth quote c r code _ goesOn opens closes ih =>
    have other : c ≠ '\n' := by rintro rfl; cases closes
    rw [crlf_cons other, skipStatement_of_code code,
      skipStatement_of_code (literalStep?_eq_none code _), if_neg goesOn, if_neg goesOn,
      if_neg opens, if_neg opens, if_pos closes, if_pos closes]
    exact ih plain
  | case6 depth quote c r code _ goesOn opens closes ih =>
    by_cases lineFeed : c = '\n'
    · subst lineFeed
      have inside : depth ≠ 0 := by rintro rfl; exact goesOn rfl
      rw [crlf_lineFeed, skipStatement_lineBreak inside (by decide), margin_lineFeed_crlf,
        skipStatement_lineBreak inside (by decide), margin_crlf,
        skipStatement_lineBreak inside (by decide)]
      exact ih plain
    · rw [crlf_cons lineFeed, skipStatement_of_code code,
        skipStatement_of_code (literalStep?_eq_none code _), if_neg goesOn, if_neg goesOn,
        if_neg opens, if_neg opens, if_neg closes, if_neg closes, afterCode_crlf]
      exact ih plain

theorem skipBlankLines_crlf (s : List Char) :
    skipBlankLines (crlf s) = crlf (skipBlankLines s) := by
  fun_induction skipBlankLines s with
  | case1 s blank =>
    rw [skipBlankLines_eq, margin_crlf, blank]
    rfl
  | case2 s c r blank _ lineBreak ih =>
    by_cases lineFeed : c = '\n'
    · subst lineFeed
      have first : margin (crlf s) = '\r' :: '\n' :: crlf r := by rw [margin_crlf, blank]; rfl
      rw [skipBlankLines_of_lineBreak (by decide) first,
        skipBlankLines_of_lineBreak (by decide) (margin_lineFeed_crlf r), ih]
    · have first : margin (crlf s) = c :: crlf r := by rw [margin_crlf, blank, crlf_cons lineFeed]
      rw [skipBlankLines_of_lineBreak lineBreak first, ih]
  | case3 s c r found _ other =>
    have inLine : c ≠ '\n' := by rintro rfl; exact other rfl
    rw [skipBlankLines_eq, margin_crlf, found, crlf_cons inLine]
    exact if_neg other

theorem skipBody_crlf (plain : bodyJoins s = false) : skipBody (crlf s) = crlf (skipBody s) := by
  unfold bodyJoins at plain
  unfold skipBody
  rw [skipBlankLines_crlf]
  split
  · next t opens =>
    obtain ⟨r, same, rfl⟩ := exists_of_crlf_eq_cons (by decide) opens
    rw [same] at plain ⊢
    exact skipBalanced_crlf (by decide) plain
  · next closed =>
    split
    · next r opens => exact absurd (by rw [opens]; rfl) (closed (crlf r))
    · next other =>
      split at plain
      · next r opens => exact absurd opens (other r)
      · exact skipStatement_crlf plain

/-! ## Conditionals and definitions -/

theorem afterKeyword?_crlf {keyword : String}
    (word : '\r' ∉ keyword.toList ∧ '\n' ∉ keyword.toList) (s : List Char) :
    afterKeyword? keyword (crlf s) = (afterKeyword? keyword s).map crlf := by
  unfold afterKeyword?
  rw [show after? keyword.toList (crlf s) = (after? keyword.toList s).map crlf from
    Breaks.crlf.after?_write word s]
  cases after? keyword.toList s with
  | none => rfl
  | some t =>
    cases t with
    | nil => rfl
    | cons c r =>
      by_cases lineFeed : c = '\n'
      · subst lineFeed
        rfl
      · simp only [Option.map_some, crlf_cons lineFeed]
        split
        · rfl
        · rw [Option.map_some, crlf_cons lineFeed]

/-- A keyword is found across white space in both texts. -/
theorem afterSpace?_crlf {keyword : String} {found : Option (List Char)}
    (word : '\r' ∉ keyword.toList ∧ '\n' ∉ keyword.toList)
    (same : afterKeyword? keyword (skipSpace s) = found) :
    afterKeyword? keyword (skipSpace (crlf s)) = found.map crlf := by
  rw [skipSpace_crlf, afterKeyword?_crlf word, same]

theorem skipBranch_crlf (plain : branchJoins s = false) :
    skipBody (skipCall (crlf s)) = crlf (skipBody (skipCall s)) := by
  obtain ⟨call, body⟩ := Bool.or_eq_false_iff.1 plain
  rw [skipCall_crlf call, skipBody_crlf body]

theorem skipConditional_crlf (plain : conditionalJoins s = false) :
    skipConditional (crlf s) = crlf (skipConditional s) := by
  fun_induction conditionalJoins s with
  | case1 s absent =>
    have absent' := afterSpace?_crlf (by decide) absent
    rw [← skipBranch_crlf plain] at absent'
    rw [skipConditional_of_alone absent, skipConditional_of_alone absent', skipBranch_crlf plain]
  | case2 s r found absent =>
    obtain ⟨branch, body⟩ := Bool.or_eq_false_iff.1 plain
    have found' := afterSpace?_crlf (by decide) found
    rw [← skipBranch_crlf branch] at found'
    rw [skipConditional_of_else found absent,
      skipConditional_of_else found' (afterSpace?_crlf (by decide) absent), skipBody_crlf body]
  | case3 s r found rest more _ ih =>
    obtain ⟨branch, later⟩ := Bool.or_eq_false_iff.1 plain
    have found' := afterSpace?_crlf (by decide) found
    rw [← skipBranch_crlf branch] at found'
    rw [skipConditional_of_elseIf found more,
      skipConditional_of_elseIf found' (afterSpace?_crlf (by decide) more)]
    exact ih later

theorem skipAlternative_crlf (plain : alternativeJoins s = false) :
    skipAlternative (crlf s) = crlf (skipAlternative s) := by
  unfold alternativeJoins at plain
  cases found : afterKeyword? "if" (skipSpace s) with
  | none =>
    rw [found] at plain
    rw [skipAlternative_of_body found, skipAlternative_of_body (afterSpace?_crlf (by decide) found)]
    exact skipBody_crlf plain
  | some r =>
    rw [found] at plain
    rw [skipAlternative_of_if found, skipAlternative_of_if (afterSpace?_crlf (by decide) found)]
    exact skipConditional_crlf plain

theorem skipMethod_crlf (plain : methodJoins s = false) :
    skipMethod (crlf s) = crlf (skipMethod s) := by
  obtain ⟨call, body⟩ := Bool.or_eq_false_iff.1 plain
  unfold skipMethod
  rw [skipCall_crlf call, skipSpace_crlf]
  split
  · next t opens =>
    obtain ⟨r, same, rfl⟩ := exists_of_crlf_eq_cons (by decide) opens
    rw [same] at body ⊢
    exact skipBalanced_crlf (by decide) body
  · next closed =>
    split
    · next r opens => exact absurd (by rw [opens]; rfl) (closed (crlf r))
    · rfl

theorem definition_crlf (plain : definitionJoins s = false) :
    definition (crlf s) = ((definition s).1.map crlf, crlf (definition s).2) := by
  have name : lastWord ((crlf s).takeWhile fun c => !endsWords c) =
      crlf (lastWord (s.takeWhile fun c => !endsWords c)) := by
    rw [crlf, Breaks.crlf.takeWhile_write (by decide), Breaks.crlf.lastWord_write]
    rfl
  have rest : ((crlf s).dropWhile fun c => !endsWords c) =
      crlf (s.dropWhile fun c => !endsWords c) := Breaks.crlf.dropWhile_write (by decide) s
  unfold definitionJoins at plain
  simp only [definition, name, rest]
  split
  · next t assigns =>
    obtain ⟨r, same, rfl⟩ := exists_of_crlf_eq_cons (by decide) assigns
    rw [same]
    rfl
  · next t opens =>
    obtain ⟨r, same, rfl⟩ := exists_of_crlf_eq_cons (by decide) opens
    rw [same] at plain ⊢
    exact Prod.ext rfl (skipMethod_crlf plain)
  · next noAssign noCall =>
    split
    · next r assigns => exact absurd (by rw [assigns]; rfl) (noAssign (crlf r))
    · next r opens => exact absurd (by rw [opens]; rfl) (noCall (crlf r))
    · rfl

end BuildScript
