import BuildScript.Proofs.Grammar.Reading
import BuildScript.Proofs.Skipped.Brackets
import Mathlib.Data.List.Permutation

/-!
# Skipped constructs leave no trace

Conditionals with their alternatives, method definitions and standalone calls as data, whatever the
code in their brackets is.  Reading goes on behind such a construct with the document as it was.
-/

namespace BuildScript.Skipped

open Text Grammar

/-! ## Constructs -/

/-- Spaces, tabs and line breaks. -/
abbrev Space := Run isSpace

/-- A test and a body in braces. -/
structure Branch where
  blanks : Indent
  test : Test
  space : Space
  body : Body

/-- A branch behind `else if`. -/
structure ElseIf where
  before : Space
  gap : Space
  separated : gap.1 ≠ []
  branch : Branch

/-- A body behind `else`. -/
structure Else where
  before : Space
  space : Space
  body : Body

inductive Construct where
  | conditional (first : Branch) (others : List ElseIf) (last : Option Else)
  /-- A conditional that governs one statement. -/
  | single (blanks : Indent) (test : Test) (space : Space) (statement : Statement)
  | method (gap : Gap) (words : List (Word × Gap)) (name : Word) (blanks : Indent)
      (parameters : Test) (space : Space) (body : Body)
  | call (name : Key) (arguments : Test)

def Branch.text (branch : Branch) : List Char :=
  branch.blanks.1 ++ (branch.test.text ++ (branch.space.1 ++ branch.body.text))

def ElseIf.text (branch : ElseIf) : List Char :=
  branch.before.1 ++ ("else".toList ++ (branch.gap.1 ++ ("if".toList ++ branch.branch.text)))

def Else.text (last : Else) : List Char :=
  last.before.1 ++ ("else".toList ++ (last.space.1 ++ last.body.text))

def alternativesText : List ElseIf → Option Else → List Char
  | [], none => []
  | [], some last => last.text
  | branch :: others, last => branch.text ++ alternativesText others last

def Construct.text : Construct → List Char
  | conditional first others last => "if".toList ++ (first.text ++ alternativesText others last)
  | single blanks test space statement =>
    "if".toList ++ (blanks.1 ++ (test.text ++ (space.1 ++ statement.chars)))
  | method gap words name blanks parameters space body =>
    "def".toList ++ (gap.chars ++ (wordsText words ++ (name.chars ++ (blanks.1 ++
      (parameters.text ++ (space.1 ++ body.text))))))
  | call name arguments => name.chars ++ arguments.text

/-- An `else` is the first word of the text. -/
def ElseFollows (s : List Char) : Prop :=
  ∃ space r, (∀ c ∈ space, isSpace c = true) ∧ s = space ++ ("else".toList ++ r) ∧
    ∀ c ∈ r.head?, isNameChar c = false

/-- The construct ends where the text begins: nothing there belongs to it.  Calls are skipped only
outside repositories. -/
def Construct.EndsAt (kind : ScopeKind) (rest : List Char) : Construct → Prop
  | conditional _ _ none => ¬ ElseFollows rest
  | conditional _ _ (some _) => True
  | single .. => AtLineEnd rest ∧ ¬ ElseFollows rest
  | method .. => True
  | call .. => kind = .script ∧ ∀ c ∈ (skipIndent rest).head?, c ≠ '{'

/-- How far the line is read behind the construct. -/
def Construct.line : Construct → Line
  | call .. => .key ""
  | _ => .done

/-! ## Blanks and keywords -/

theorem skipSpace_append {space s : List Char} (h : ∀ c ∈ space, isSpace c = true)
    (stop : ∀ c ∈ s.head?, isSpace c = false) : skipSpace (space ++ s) = s := by
  rw [skipSpace, List.dropWhile_append_of_pos h]
  cases s with
  | nil => rfl
  | cons c s => simp [stop c rfl]

/-- Before a body only blank lines are skipped. -/
theorem skipBlankLines_append {space s : List Char} (h : ∀ c ∈ space, isSpace c = true)
    (start : margin s = s) (stop : ∀ c ∈ s.head?, isLineBreak c = false) :
    skipBlankLines (space ++ s) = s := by
  induction space with
  | nil =>
    rw [List.nil_append, skipBlankLines_eq, start]
    cases s with
    | nil => rfl
    | cons c s => simp [stop c rfl]
  | cons c space ih =>
    have onward := ih fun d hd => h d (by simp [hd])
    have blank : isIndent c = true ∨ isLineBreak c = true := by
      simpa [isSpace] using h c (by simp)
    rw [List.cons_append]
    rcases blank with indent | lineBreak
    · rw [skipBlankLines_cons_of_isIndent indent, onward]
    · rw [skipBlankLines_eq, margin_lineBreak lineBreak]
      simp only [lineBreak, if_true]
      exact onward

theorem afterKeyword?_append (keyword : String) {rest : List Char}
    (h : ∀ c ∈ rest.head?, isNameChar c = false) :
    afterKeyword? keyword (keyword.toList ++ rest) = some rest := by
  unfold afterKeyword?
  rw [after?_eq_some_iff.2 rfl]
  cases rest with
  | nil => rfl
  | cons c r => simp [h c rfl]

theorem afterKeyword?_eq_none_of_head {keyword : String} {c d : Char} {k r : List Char}
    (start : keyword.toList = d :: k) (h : c ≠ d) : afterKeyword? keyword (c :: r) = none := by
  simp [afterKeyword?, start, after?, Ne.symm h]

theorem elseFollows_of_afterKeyword? {s r : List Char}
    (h : afterKeyword? "else" (skipSpace s) = some r) : ElseFollows s := by
  have stop : ∀ c ∈ r.head?, isNameChar c = false := by
    intro c hc
    unfold afterKeyword? at h
    split at h
    · split at h
      · cases h
      · next plain =>
        cases h
        cases hc
        simpa using plain
    · next other =>
      cases r with
      | nil => cases hc
      | cons d r => exact absurd h (other d r)
  refine ⟨s.takeWhile isSpace, r, fun c hc => List.all_eq_true.1 List.all_takeWhile c hc, ?_, stop⟩
  rw [← eq_append_of_afterKeyword? h, skipSpace, List.takeWhile_append_dropWhile]

theorem elseFollows_iff {s : List Char} :
    ElseFollows s ↔ (afterKeyword? "else" (skipSpace s)).isSome = true := by
  constructor
  · rintro ⟨space, r, blank, rfl, stop⟩
    rw [skipSpace_append blank (by rintro c ⟨⟩; rfl), afterKeyword?_append "else" stop]
    rfl
  · intro found
    obtain ⟨r, found⟩ := Option.isSome_iff_exists.1 found
    exact elseFollows_of_afterKeyword? found

instance (s : List Char) : Decidable (ElseFollows s) := decidable_of_iff _ elseFollows_iff.symm

/-! ## Skipping -/

/-- Blank lines before a `{` belong to the body. -/
theorem skipBody_opening (space : Space) (s : List Char) :
    skipBody (space.1 ++ '{' :: s) = skipBalanced '{' '}' 0 none ('{' :: s) := by
  have start : margin ('{' :: s) = '{' :: s := margin_cons_of_not rfl (by decide) _
  rw [skipBody, skipBlankLines_append space.2 start (by rintro c ⟨⟩; rfl)]
  rfl

theorem skipBody_body (space : Space) (body : Body) (rest : List Char) :
    skipBody (space.1 ++ (body.text ++ rest)) = rest := by
  have whole : body.text ++ rest = '{' :: (body.chars ++ ['}'] ++ rest) := rfl
  rw [whole, skipBody_opening]
  exact Pair.skipBalanced_text body rest

theorem skipBody_statement (space : Space) (statement : Statement) {rest : List Char}
    (h : AtLineEnd rest) : skipBody (space.1 ++ (statement.chars ++ rest)) = rest := by
  obtain ⟨c, chars, same⟩ := List.exists_cons_of_ne_nil statement.nonempty
  obtain ⟨notSpace, notBrace⟩ := statement.start c (by simp [same])
  have plain : isIndent c = false ∧ isLineBreak c = false := by simpa [isSpace] using notSpace
  have start : margin (statement.chars ++ rest) = statement.chars ++ rest := by
    refine margin_append_eq_self statement.nonempty (fun d hd => ?_) statement.notLineComment
      statement.notBlockComment fun d hd => ?_
    · have : c = d := by simpa [same] using hd
      exact this ▸ plain.1
    · rcases h d hd with lineBreak | rfl
      · constructor <;> rintro rfl <;> cases lineBreak
      · decide
  have stop : ∀ d ∈ (statement.chars ++ rest).head?, isLineBreak d = false := by
    intro d hd
    have : c = d := by simpa [same] using hd
    exact this ▸ plain.2
  rw [skipBody, skipBlankLines_append space.2 start stop]
  split
  · next brace =>
    rw [same] at brace
    exact absurd (List.cons.inj brace).1 notBrace
  · exact skipStatement_text statement h

theorem skipBody_branch (branch : Branch) (rest : List Char) :
    skipBody (skipCall (branch.text ++ rest)) = rest := by
  simp only [Branch.text, List.append_assoc]
  rw [skipCall_text branch.blanks.2]
  exact skipBody_body branch.space branch.body rest

/-- Space ends a keyword. -/
theorem head?_space (space : Space) {s : List Char}
    (h : space.1 = [] → ∀ c ∈ s.head?, isNameChar c = false) :
    ∀ c ∈ (space.1 ++ s).head?, isNameChar c = false := by
  obtain ⟨chars, blank⟩ := space
  cases chars with
  | nil => exact h rfl
  | cons d chars =>
    rintro c ⟨⟩
    have : (d = ' ' ∨ d = '\t') ∨ d = '\n' ∨ d = '\r' := by
      simpa [isSpace, isIndent, isLineBreak] using blank d (by simp)
    rcases this with (rfl | rfl) | rfl | rfl <;> decide

/-- Behind an `else` that follows space. -/
theorem afterKeyword?_else (before space : Space) {s : List Char}
    (h : space.1 = [] → ∀ c ∈ s.head?, isNameChar c = false) :
    afterKeyword? "else" (skipSpace (before.1 ++ ("else".toList ++ (space.1 ++ s)))) =
      some (space.1 ++ s) := by
  rw [skipSpace_append before.2 (by rintro c ⟨⟩; rfl),
    afterKeyword?_append "else" (head?_space space h)]

theorem skipConditional_text (first : Branch) (others : List ElseIf) (last : Option Else)
    {rest : List Char} (h : last = none → ¬ ElseFollows rest) :
    skipConditional (first.text ++ (alternativesText others last ++ rest)) = rest := by
  induction others generalizing first with
  | nil =>
    cases last with
    | none =>
      rw [skipConditional_of_alone, skipBody_branch]
      · rfl
      · rw [skipBody_branch]
        cases found : afterKeyword? "else" (skipSpace rest) with
        | none => exact found
        | some r => exact absurd (elseFollows_of_afterKeyword? found) (h rfl)
    | some last =>
      have brace : ∀ c ∈ (last.body.text ++ rest).head?, isNameChar c = false := by
        rintro c ⟨⟩
        decide
      have found : afterKeyword? "else" (skipSpace (skipBody (skipCall
          (first.text ++ (alternativesText [] (some last) ++ rest))))) =
          some (last.space.1 ++ (last.body.text ++ rest)) := by
        rw [skipBody_branch]
        simp only [alternativesText, Else.text, List.append_assoc]
        exact afterKeyword?_else last.before last.space fun _ => brace
      have absent : afterKeyword? "if" (skipSpace (last.space.1 ++ (last.body.text ++ rest))) =
          none := by
        rw [skipSpace_append last.space.2 (by rintro c ⟨⟩; rfl)]
        exact afterKeyword?_eq_none_of_head rfl (by decide)
      rw [skipConditional_of_else found absent, skipBody_body]
  | cons branch others ih =>
    have word : ∀ c ∈ ("if".toList ++ (branch.branch.text ++
        (alternativesText others last ++ rest))).head?, isSpace c = false := by
      rintro c ⟨⟩
      rfl
    have start : ∀ c ∈ (branch.branch.text ++ (alternativesText others last ++ rest)).head?,
        isNameChar c = false := by
      simp only [Branch.text, List.append_assoc]
      refine head?_space ⟨branch.branch.blanks.1, ?_⟩ fun _ => ?_
      · intro c hc
        simp [isSpace, branch.branch.blanks.2 c hc]
      · rintro c ⟨⟩
        decide
    have found : afterKeyword? "else" (skipSpace (skipBody (skipCall
        (first.text ++ (alternativesText (branch :: others) last ++ rest))))) =
        some (branch.gap.1 ++ ("if".toList ++ (branch.branch.text ++
          (alternativesText others last ++ rest)))) := by
      rw [skipBody_branch]
      simp only [alternativesText, ElseIf.text, List.append_assoc]
      exact afterKeyword?_else branch.before branch.gap fun empty => absurd empty branch.separated
    have more : afterKeyword? "if" (skipSpace (branch.gap.1 ++ ("if".toList ++
        (branch.branch.text ++ (alternativesText others last ++ rest))))) =
        some (branch.branch.text ++ (alternativesText others last ++ rest)) := by
      rw [skipSpace_append branch.gap.2 word, afterKeyword?_append "if" start]
    rw [skipConditional_of_elseIf found more, ih branch.branch]

/-! ## Methods -/

theorem skipMethod_opening (parameters : Test) (space : Space) (s : List Char) :
    skipMethod (parameters.text ++ (space.1 ++ '{' :: s)) =
      skipBalanced '{' '}' 0 none ('{' :: s) := by
  have signature : skipCall (parameters.text ++ (space.1 ++ '{' :: s)) = space.1 ++ '{' :: s :=
    skipCall_text (fun _ member => absurd member List.not_mem_nil) parameters _
  rw [skipMethod, signature, skipSpace_append space.2 (by rintro c ⟨⟩; rfl)]
  rfl

theorem skipMethod_text (parameters : Test) (space : Space) (body : Body) (rest : List Char) :
    skipMethod (parameters.text ++ (space.1 ++ (body.text ++ rest))) = rest := by
  have whole : body.text ++ rest = '{' :: (body.chars ++ ['}'] ++ rest) := rfl
  rw [whole, skipMethod_opening]
  exact Pair.skipBalanced_text body rest

/-- The parameters of a method end the words before them. -/
theorem definition_method (gap : Gap) (words : List (Word × Gap)) (name : Word) (blanks : Indent)
    (parameters : Test) (space : Space) (body : Body) (rest : List Char) :
    definition (gap.chars ++ (wordsText words ++ (name.chars ++ (blanks.1 ++
      (parameters.text ++ (space.1 ++ (body.text ++ rest))))))) = (none, rest) := by
  have inWords : ∀ c ∈ gap.chars ++ (wordsText words ++ (name.chars ++ blanks.1)),
      (!endsWords c) = true := by
    intro c hc
    rw [endsWords_eq_false_of_mem_signature hc, Bool.not_false]
  have signature : gap.chars ++ (wordsText words ++ (name.chars ++ (blanks.1 ++
      (parameters.text ++ (space.1 ++ (body.text ++ rest)))))) =
      (gap.chars ++ (wordsText words ++ (name.chars ++ blanks.1))) ++
        '(' :: (parameters.chars ++ [')'] ++ (space.1 ++ (body.text ++ rest))) := by
    simp [Pair.Inner.text, Pair.opening, Pair.closing]
  have paren : endsWords '(' = true := rfl
  rw [signature, definition, List.dropWhile_append_of_pos inWords]
  simp only [List.dropWhile_cons, paren, Bool.not_true, Bool.false_eq_true, if_false]
  exact congrArg (Prod.mk none) (skipMethod_text parameters space body rest)

/-! ## Reading -/

variable {nesting : Nesting} {kind : ScopeKind} {doc : Document} {outer : List Frame}

/-- A conditional is skipped behind its `if`. -/
theorem read_if (blanks : Indent) {s : List Char} (h : s.head? = some '(') :
    read nesting ⟨kind, doc, .key "if", outer⟩ (blanks.1 ++ s) =
      read nesting ⟨kind, doc, .done, outer⟩ (skipConditional (blanks.1 ++ s)) := by
  obtain ⟨chars, indent⟩ := blanks
  cases chars with
  | nil =>
    cases s with
    | nil => cases h
    | cons c s =>
      cases h
      exact read_of_next (step_if (.inl rfl) s)
  | cons c chars =>
    have delimiter := isDelimiter_of_isIndent (indent c (by simp))
    exact read_of_next (step_if (.inr delimiter) (chars ++ s))

/-- A keyword at the start of a line is read as the key. -/
theorem read_keyword (indent : Indent) (keyword : String) (nonempty : keyword.toList ≠ [])
    (h : ∀ c ∈ keyword.toList, endsWord c = false ∧ c ≠ '(' ∧ c ≠ '/') (rest : List Char) :
    read nesting ⟨kind, doc, .key "", outer⟩ (margin (indent.1 ++ (keyword.toList ++ rest))) =
      read nesting ⟨kind, doc, .key keyword, outer⟩ rest := by
  have word : ∀ c ∈ keyword.toList, endsWord c = false ∧ c ≠ '(' :=
    fun c hc => ⟨(h c hc).1, (h c hc).2.1⟩
  have start : margin (keyword.toList ++ rest) = keyword.toList ++ rest := by
    obtain ⟨c, r, same⟩ := List.exists_cons_of_ne_nil nonempty
    obtain ⟨inWord, -, slash⟩ := h c (by simp [same])
    have notIndent : isIndent c = false := by
      cases indent : isIndent c with
      | false => rfl
      | true => rw [(endsWord_eq_false_iff.1 inWord).1.symm, isDelimiter_of_isIndent indent]
    rw [same]
    exact margin_cons_of_not notIndent slash (r ++ rest)
  rw [margin_append_of_isIndent indent.2, start, read_word "" word]
  simp

theorem read_conditional (indent : Indent) (first : Branch) (others : List ElseIf)
    (last : Option Else) {rest : List Char} (h : last = none → ¬ ElseFollows rest) :
    read nesting ⟨kind, doc, .key "", outer⟩
        (margin (indent.1 ++ ((Construct.conditional first others last).text ++ rest))) =
      read nesting ⟨kind, doc, .done, outer⟩ rest := by
  have skipped := skipConditional_text first others last h
  simp only [Construct.text, List.append_assoc]
  rw [read_keyword indent "if" (by decide) (by decide)]
  simp only [Branch.text, List.append_assoc] at skipped ⊢
  rw [read_if first.blanks rfl, skipped]

theorem read_single (indent blanks : Indent) (test : Test) (space : Space) (statement : Statement)
    {rest : List Char} (end_ : AtLineEnd rest) (h : ¬ ElseFollows rest) :
    read nesting ⟨kind, doc, .key "", outer⟩
        (margin (indent.1 ++ ((Construct.single blanks test space statement).text ++ rest))) =
      read nesting ⟨kind, doc, .done, outer⟩ rest := by
  have skipped : skipConditional
      (blanks.1 ++ (test.text ++ (space.1 ++ (statement.chars ++ rest)))) = rest := by
    have body : skipBody (skipCall
        (blanks.1 ++ (test.text ++ (space.1 ++ (statement.chars ++ rest))))) = rest := by
      rw [skipCall_text blanks.2, skipBody_statement space statement end_]
    rw [skipConditional_of_alone, body]
    rw [body]
    cases found : afterKeyword? "else" (skipSpace rest) with
    | none => rfl
    | some r => exact absurd (elseFollows_of_afterKeyword? found) h
  simp only [Construct.text, List.append_assoc]
  rw [read_keyword indent "if" (by decide) (by decide), read_if blanks rfl, skipped]

theorem read_method (indent : Indent) (gap : Gap) (words : List (Word × Gap)) (name : Word)
    (blanks : Indent) (parameters : Test) (space : Space) (body : Body) (rest : List Char) :
    read nesting ⟨kind, doc, .key "", outer⟩ (margin (indent.1 ++
        ((Construct.method gap words name blanks parameters space body).text ++ rest))) =
      read nesting ⟨kind, doc, .done, outer⟩ rest := by
  have defined := definition_method gap words name blanks parameters space body rest
  simp only [Construct.text, List.append_assoc]
  rw [read_keyword indent "def" (by decide) (by decide)]
  obtain ⟨c, r, same⟩ := List.exists_cons_of_ne_nil gap.nonempty
  have delimiter := isDelimiter_of_isIndent (gap.blanks c (by simp [same]))
  have paren : c ≠ '(' := by rintro rfl; cases delimiter
  rw [same, List.cons_append] at defined ⊢
  apply read_of_next
  rw [step_key "def" (endsValue_of_isDelimiter delimiter)]
  simp [keyStep, paren, delimiter, defined]

/-- The name of a call begins no comment. -/
theorem margin_call (name : Key) (r : List Char) :
    margin (name.chars ++ '(' :: r) = name.chars ++ '(' :: r := by
  refine margin_word name.nonempty (fun c hc => (name.inWord c hc).1) name.notLineComment
    name.notBlockComment ?_
  rintro c ⟨⟩
  decide

/-- Outside repositories a call goes with its name. -/
theorem read_call (indent : Indent) (name : Key) (arguments : Test) {rest : List Char}
    (h : ∀ c ∈ (skipIndent rest).head?, c ≠ '{') :
    read nesting ⟨.script, doc, .key "", outer⟩
        (margin (indent.1 ++ ((Construct.call name arguments).text ++ rest))) =
      read nesting ⟨.script, doc, .key "", outer⟩ rest := by
  have skipped : skipCall ('(' :: (arguments.chars ++ [')'] ++ rest)) = rest :=
    skipCall_text (fun _ member => absurd member List.not_mem_nil) arguments rest
  have dropped : callStep ⟨.script, doc, .key name.name, outer⟩ name.name
      ('(' :: (arguments.chars ++ [')'] ++ rest)) =
      .next ⟨.script, doc, .key "", outer⟩ rest := by
    simp only [callStep, skipped]
    split
    · next brace => exact absurd rfl (h '{' (by simp [brace]))
    · rfl
  have whole : (Construct.call name arguments).text ++ rest =
      name.chars ++ '(' :: (arguments.chars ++ [')'] ++ rest) := by
    simp [Construct.text, Pair.Inner.text, Pair.opening, Pair.closing]
  rw [whole, margin_append_of_isIndent indent.2, margin_call, read_word "" name.inWord]
  apply read_of_next
  rw [← dropped]
  have notIf : String.ofList name.chars ≠ "if" := name.name_ne_keyword.1
  simp [step, isLineBreak, keyStep, notIf, ScopeKind.keepsCalls, Key.name]

/-- At the end of a line it does not matter whether the line is empty or has been dropped. -/
theorem read_atLineEnd {rest : List Char} (h : AtLineEnd rest) :
    read nesting ⟨kind, doc, .done, outer⟩ rest =
      read nesting ⟨kind, doc, .key "", outer⟩ rest := by
  have stored : Line.store kind doc (.key "") = Line.store kind doc .done := by
    simp [Line.store, ScopeKind.storeSetting]
  cases rest with
  | nil => simp only [read_nil, State.finished, stored]
  | cons c r =>
    rcases h c rfl with lineBreak | rfl
    · rw [read_lineBreak lineBreak, read_lineBreak lineBreak, stored]
    · apply read_of_same_step
      show closeBlock nesting ⟨kind, doc, .done, outer⟩ r =
        closeBlock nesting ⟨kind, doc, .key "", outer⟩ r
      simp only [closeBlock, State.leave, State.newLine, State.finished, stored]

/-- A skipped construct leaves no trace.  In every scope, whatever has been read before, reading
goes on right behind the construct with the same document.  If nothing follows it on its line, the
script is read as if the construct were not there. -/
theorem read_construct (nesting : Nesting) (kind : ScopeKind) (doc : Document)
    (outer : List Frame) (indent : Indent) (construct : Construct) (rest : List Char)
    (h : construct.EndsAt kind rest) :
    read nesting ⟨kind, doc, .key "", outer⟩ (margin (indent.1 ++ (construct.text ++ rest))) =
        read nesting ⟨kind, doc, construct.line, outer⟩ rest ∧
      (AtLineEnd rest →
        read nesting ⟨kind, doc, .key "", outer⟩ (margin (indent.1 ++ (construct.text ++ rest))) =
          read nesting ⟨kind, doc, .key "", outer⟩ (margin (indent.1 ++ rest))) := by
  have behind : read nesting ⟨kind, doc, .key "", outer⟩
      (margin (indent.1 ++ (construct.text ++ rest))) =
      read nesting ⟨kind, doc, construct.line, outer⟩ rest := by
    cases construct with
    | conditional first others last =>
      refine read_conditional indent first others last ?_
      rintro rfl
      exact h
    | single blanks test space statement => exact read_single indent blanks test space statement h.1 h.2
    | method gap words name blanks parameters space body =>
      exact read_method indent gap words name blanks parameters space body rest
    | call name arguments =>
      obtain ⟨rfl, follows⟩ := h
      exact read_call indent name arguments follows
  refine ⟨behind, fun end_ => behind.trans ?_⟩
  rw [margin_append_of_isIndent indent.2, end_.margin]
  cases construct with
  | call name arguments => rfl
  | conditional first others last => exact read_atLineEnd end_
  | single blanks test space statement => exact read_atLineEnd end_
  | method gap words name blanks parameters space body => exact read_atLineEnd end_

/-- Brackets in literals and comments, an escaped quote and line breaks before the braces. -/
def sampleConditional : Construct :=
  .conditional
    ⟨⟨[' '], isIndent_of_mem_space⟩, ⟨"a(')', b)".toList, by decide, by decide⟩,
      ⟨"\n ".toList, by decide⟩, ⟨"\n// \x7d\n x \"\\\" \x7d\" \x7b \x7d ".toList, by decide, by decide⟩⟩
    [⟨⟨"\n".toList, by decide⟩, ⟨[' '], by decide⟩, by decide,
      ⟨Run.none, ⟨"\n/* ) */ c".toList, by decide, by decide⟩, Run.none,
        ⟨"'\x7b\n".toList, by decide, by decide⟩⟩⟩]
    none

theorem read_sampleConditional :
    sampleConditional.EndsAt .repository "\nelsewhere 1".toList ∧
      read ⟨4, 0⟩ ⟨.repository, [("k", .text "0")], .key "", []⟩
          (margin ("\t".toList ++ (sampleConditional.text ++ "\nelsewhere 1".toList))) =
        .closed [("k", .text "0"), ("elsewhere", .text "1")] [] := by
  have ends : sampleConditional.EndsAt .repository "\nelsewhere 1".toList := by
    show ¬ ElseFollows _
    decide
  refine ⟨ends, ?_⟩
  have run := (read_construct ⟨4, 0⟩ .repository [("k", .text "0")] [] ⟨"\t".toList, by decide⟩
    sampleConditional "\nelsewhere 1".toList ends).1
  refine run.trans ?_
  with_unfolding_all rfl

end BuildScript.Skipped
