import BuildScript.Proofs.Bodies.Scan
import BuildScript.Proofs.Skipped.Construct

/-!
# Bodies that are read and bodies that are skipped

A block ends at the `}` behind its body, wherever comments stand in it.  The body of a conditional
or of a method ends at the same place if its braces are balanced in the code that skipping sees.
They are unless a comment stands right behind a `{`, where only the reader takes it for a comment.
-/

namespace BuildScript.Bodies

open Text Grammar
open Skipped (Space skipBody_opening skipMethod_opening)

variable {nesting : Nesting} {kind : ScopeKind} {doc : Document} {outer : List Frame}

/-! ## Reading a body -/

theorem read_plainText (name raw : String) {s : List Char}
    (h : ∀ c ∈ s, endsValue c = false ∧ isSpecial c = false) (rest : List Char) :
    ∃ raw', read nesting ⟨kind, doc, .value name raw, outer⟩ (s ++ rest) =
      read nesting ⟨kind, doc, .value name raw', outer⟩ rest := by
  induction s generalizing raw with
  | nil => exact ⟨raw, rfl⟩
  | cons c s ih =>
    obtain ⟨inValue, plain⟩ := h c (by simp)
    have notBracket : c ≠ '[' := (not_bracket_of_isSpecial plain).2.2.1
    have taken : ∃ raw', step nesting ⟨kind, doc, .value name raw, outer⟩ c (s ++ rest) =
        .next ⟨kind, doc, .value name raw', outer⟩ (s ++ rest) := by
      rw [step_value name raw inValue]
      by_cases leading : (raw = "" && isDelimiter c) = true
      · exact ⟨raw, by rw [valueStep, if_pos leading]⟩
      · exact ⟨raw.push c, by rw [valueStep, if_neg leading]; simp [notBracket]⟩
    obtain ⟨raw', taken⟩ := taken
    rw [List.cons_append, read_of_next taken]
    exact ih raw' fun d hd => h d (by simp [hd])

/-- Reading goes on behind the text in the same scope, whatever the scope has stored by then. -/
def ReadsOn (nesting : Nesting) (kind : ScopeKind) (outer : List Frame) (s rest : List Char) :
    Prop :=
  ∀ doc, ∃ doc' line, read nesting ⟨kind, doc, .key "", outer⟩ (margin s) =
    read nesting ⟨kind, doc', line, outer⟩ rest

theorem readsOn_of_margin {s rest : List Char} (h : margin s = rest) :
    ReadsOn nesting kind outer s rest :=
  fun doc => ⟨doc, .key "", by rw [h]⟩

theorem readsOn_setting (indent : Indent) (key : PlainKey) (separator : Separator)
    (value : PlainText) (rest : List Char) :
    ReadsOn nesting kind outer
      (indent.1 ++ (key.chars ++ (separator.chars ++ (value.1 ++ rest)))) rest := by
  intro doc
  rw [read_key indent key.toKey (separator.endOfKey _), read_key_separator]
  obtain ⟨raw, run⟩ := read_plainText key.name "" (fun c hc => by simpa using value.2 c hc) rest
  exact ⟨doc, .value key.name raw, run⟩

theorem endsNoLine (text : PlainText) :
    ∀ c ∈ text.1, isLineBreak c = false ∧ c ≠ '}' := by
  intro c hc
  have inText : endsValue c = false ∧ isSpecial c = false := by simpa using text.2 c hc
  obtain ⟨lineBreak, -, closing⟩ := endsValue_eq_false_iff.1 inText.1
  exact ⟨lineBreak, closing⟩

/-- The `{` behind a key. -/
theorem read_key_opening (indent : Indent) (key : PlainKey) (separators : Separators)
    (s : List Char) :
    read nesting ⟨kind, doc, .key "", outer⟩
        (margin (indent.1 ++ (key.chars ++ (separators.1 ++ '{' :: s)))) =
      read nesting ⟨kind, doc, key.line separators, outer⟩ ('{' :: s) := by
  have opening : EndOfKey ('{' :: s) := by
    rintro c ⟨⟩
    decide
  rw [read_key indent key.toKey (endOfKey_separators separators opening), read_key_separators]

theorem readsOn_dependencies (indent : Indent) (key : PlainKey) (separators : Separators)
    (body : Body false) (tail : PlainText) (rest : List Char) (special : key.name = "dependencies")
    (plain : body.hasCommentBehindBrace = false)
    (room : nesting.depth + outer.length < nesting.limit) :
    ReadsOn nesting kind outer (indent.1 ++ (key.chars ++ (separators.1 ++ '{' ::
      (body.text ++ '}' :: (tail.1 ++ rest))))) rest := by
  intro doc
  rw [read_key_opening, read_dependencies (special ▸ key.blockKey?_line separators) room,
    blockDependencies_text body plain, read_done (endsNoLine tail)]
  exact ⟨_, _, rfl⟩

/-- A block is read as its body is, inside one more block. -/
theorem readsOn_block (indent : Indent) (key : PlainKey) (separators : Separators)
    {body : List Char} (tail : PlainText) (rest : List Char) (other : key.name ≠ "dependencies")
    (room : nesting.depth + outer.length < nesting.limit)
    (h : ∀ frame, ReadsOn nesting (kind.ofBlock key.name) (frame :: outer)
      (body ++ '}' :: (tail.1 ++ rest)) ('}' :: (tail.1 ++ rest))) :
    ReadsOn nesting kind outer (indent.1 ++ (key.chars ++ (separators.1 ++ '{' ::
      (body ++ '}' :: (tail.1 ++ rest))))) rest := by
  intro doc
  obtain ⟨inner, line, run⟩ := h ⟨key.name, kind, doc⟩ []
  rw [read_key_opening, read_opening (key.blockKey?_line separators) other room, run, read_closing,
    read_done (endsNoLine tail)]
  exact ⟨_, _, rfl⟩

theorem ReadsOn.lineBreak {s rest more : List Char} (lineBreak : LineBreak)
    (h : ReadsOn nesting kind outer s (lineBreak.text ++ more))
    (next : ReadsOn nesting kind outer more rest) : ReadsOn nesting kind outer s rest := by
  intro doc
  obtain ⟨doc', line, run⟩ := h doc
  obtain ⟨doc'', line', run'⟩ := next (line.store kind doc')
  exact ⟨doc'', line', by rw [run, read_lineBreak_text, run']⟩

mutual

theorem readsOn_line {commented : Bool} (line : BodyLine commented) (kind : ScopeKind)
    (outer : List Frame) (rest : List Char) (h : EndOfLine commented rest)
    (plain : line.statementsArePlain = true)
    (room : nesting.depth + outer.length + line.depth ≤ nesting.limit) :
    ReadsOn nesting kind outer (line.text ++ rest) rest := by
  match line with
  | .blank indent =>
    apply readsOn_of_margin
    rw [BodyLine.text, margin_append_of_isIndent indent.2, margin_of_endOfLine h]
  | .comment indent text =>
    apply readsOn_of_margin
    rw [BodyLine.text, List.append_assoc]
    exact margin_commentText indent text h
  | .afterComment indent body line =>
    intro doc
    obtain ⟨doc', last, run⟩ := readsOn_line line kind outer rest h plain room doc
    refine ⟨doc', last, ?_⟩
    simp only [BodyLine.text, List.append_assoc, List.cons_append]
    rw [margin_commentBody, run]
  | .setting indent key separator value =>
    simpa only [BodyLine.text, List.append_assoc] using
      readsOn_setting indent key separator value rest
  | .block indent key separators body tail =>
    simp only [BodyLine.text, List.append_assoc, List.cons_append]
    by_cases special : key.name = "dependencies"
    · simp only [BodyLine.statementsArePlain, special, if_true, Bool.not_eq_true'] at plain
      simp only [BodyLine.depth, special, if_true] at room
      exact readsOn_dependencies indent key separators body tail rest special plain room
    · simp only [BodyLine.statementsArePlain, special, if_false] at plain
      simp only [BodyLine.depth, special, if_false] at room
      refine readsOn_block indent key separators tail rest special (by omega) fun frame => ?_
      exact readsOn_body body _ (frame :: outer) _ (endOfLine_brace _) plain
        (by rw [List.length_cons]; omega)

theorem readsOn_body {commented : Bool} (body : Body commented) (kind : ScopeKind)
    (outer : List Frame) (rest : List Char) (h : EndOfLine commented rest)
    (plain : body.statementsArePlain = true)
    (room : nesting.depth + outer.length + body.depth ≤ nesting.limit) :
    ReadsOn nesting kind outer (body.text ++ rest) rest := by
  match body with
  | .last line => exact readsOn_line line kind outer rest h plain room
  | .cons line lineBreak more =>
    rw [Body.depth] at room
    obtain ⟨first, others⟩ := Bool.and_eq_true_iff.1 plain
    have line' := readsOn_line line kind outer _
      (EndOfLine.lineBreak _ lineBreak (more.text ++ rest)) first (by omega)
    have more' := readsOn_body more kind outer rest h others (by omega)
    simpa only [Body.text, List.append_assoc] using line'.lineBreak lineBreak more'

end

/-- A block ends at the `}` behind its body. -/
theorem readScope_body {limit depth : Nat} (kind : ScopeKind) (body : Body false)
    (plain : body.statementsArePlain = true) (room : depth + 1 + body.depth ≤ limit)
    (rest : List Char) :
    ∃ doc, readScope ⟨limit, depth + 1⟩ kind (body.text ++ '}' :: rest) = .closed doc rest := by
  have runs : ReadsOn ⟨limit, depth + 1⟩ kind [] (body.text ++ '}' :: rest) ('}' :: rest) :=
    readsOn_body body kind [] ('}' :: rest) (endOfLine_brace rest) plain room
  obtain ⟨doc, line, run⟩ := runs []
  exact ⟨line.store kind doc, by rw [readScope, State.start, run]; exact read_of_closed rfl⟩

/-! ## The end of a body -/

/-- Skipping the body of a conditional, from its test on, ends at the `}` behind the body. -/
def ConditionalEndsBehind (s : List Char) : Prop :=
  ∀ (test : Test) (space : Space) (rest : List Char),
    skipBody (skipCall (test.text ++ (space.1 ++ '{' :: (s ++ '}' :: rest)))) = rest

/-- Skipping the body of a method, from its parameters on, ends at the `}` behind the body. -/
def MethodEndsBehind (s : List Char) : Prop :=
  ∀ (parameters : Test) (space : Space) (rest : List Char),
    skipMethod (parameters.text ++ (space.1 ++ '{' :: (s ++ '}' :: rest))) = rest

theorem conditionalEndsBehind_iff (s : List Char) :
    ConditionalEndsBehind s ↔ IsBalanced s := by
  have skipped : ∀ (test : Test) (space : Space) (rest : List Char),
      skipBody (skipCall (test.text ++ (space.1 ++ '{' :: (s ++ '}' :: rest)))) =
        skipBraces ('{' :: (s ++ '}' :: rest)) := by
    intro test space rest
    have call : skipCall (test.text ++ (space.1 ++ '{' :: (s ++ '}' :: rest))) =
        space.1 ++ '{' :: (s ++ '}' :: rest) :=
      skipCall_text (fun _ member => absurd member List.not_mem_nil) test _
    rw [call, skipBody_opening]
  rw [← skipBraces_iff]
  constructor
  · intro ends rest
    rw [← skipped ⟨[], rfl, rfl⟩ ⟨[], by simp⟩]
    exact ends _ _ rest
  · intro ends test space rest
    rw [skipped, ends]

theorem methodEndsBehind_iff (s : List Char) : MethodEndsBehind s ↔ IsBalanced s := by
  rw [← skipBraces_iff]
  constructor
  · intro ends rest
    have := ends ⟨[], rfl, rfl⟩ ⟨[], by simp⟩ rest
    rwa [skipMethod_opening] at this
  · intro ends parameters space rest
    rw [skipMethod_opening]
    exact ends rest

/-- A body in braces that is read as a block ends at the `}` behind it, in every kind of scope.  The
same body, skipped behind the test of a conditional or the parameters of a method, ends there
exactly if its braces are balanced in the code that skipping sees.  They are if no comment stands
right behind a `{`, whatever the comments of the body say. -/
theorem body_ends_alike (limit depth : Nat) (kind : ScopeKind) (body : Body false)
    (plain : body.statementsArePlain = true) (room : depth + 1 + body.depth ≤ limit) :
    (∀ rest, ∃ doc,
        readScope ⟨limit, depth + 1⟩ kind (body.text ++ '}' :: rest) = .closed doc rest) ∧
      (ConditionalEndsBehind body.text ↔ IsBalanced body.text) ∧
      (MethodEndsBehind body.text ↔ IsBalanced body.text) ∧
      (body.startsWithComment = false → body.hasCommentBehindBrace = false →
        IsBalanced body.text) := by
  refine ⟨readScope_body kind body plain room, conditionalEndsBehind_iff body.text,
    methodEndsBehind_iff body.text, fun starts inside => ?_⟩
  exact (skipBraces_iff body.text).1 (skipBraces_text body starts inside)

/-- Commented braces at the start of lines, in a nested block as well, and a nested block with a
comment behind its `{`. -/
def sampleBody : Body false :=
  let blank : Indent := ⟨[' '], isIndent_of_mem_space⟩
  let a : PlainKey :=
    ⟨⟨['a'], by decide, by decide, by decide, by decide, by decide⟩, by decide⟩
  let b : PlainKey :=
    ⟨⟨['b'], by decide, by decide, by decide, by decide, by decide⟩, by decide⟩
  .cons (.blank Run.none) .lineFeed
    (.cons (.comment blank ⟨[' ', '}'], by decide⟩) .both
      (.cons (.block blank a ⟨[' '], isDelimiter_of_mem_space⟩
        (.cons (.blank Run.none) .lineFeed
          (.cons (.afterComment blank ⟨['{', '\n', '}'], by decide⟩
            (.setting blank b ⟨['='], by decide, by decide⟩ ⟨['c', '/', '/'], by decide⟩)) .lineFeed
            (.last (.blank blank))))
        Run.none) .lineFeed
        (.last (.block blank b Run.none
          (.cons (.comment blank ⟨[' ', 'n'], by decide⟩) .lineFeed (.last (.blank blank)))
          Run.none))))

theorem sampleBody_ends :
    sampleBody.text =
        "\n // \x7d\r\n a \x7b\n /*\x7b\n\x7d*/ b=c//\n \x7d\n b\x7b // n\n \x7d".toList ∧
      (∀ rest, ∃ doc,
        readScope ⟨2, 1⟩ .script (sampleBody.text ++ '}' :: rest) = .closed doc rest) ∧
      ConditionalEndsBehind sampleBody.text ∧ MethodEndsBehind sampleBody.text := by
  have balanced : IsBalanced sampleBody.text := ⟨by decide, by decide⟩
  obtain ⟨reads, conditional, method, -⟩ :=
    body_ends_alike 2 0 .script sampleBody (by decide) (by decide)
  exact ⟨by decide, reads, conditional.2 balanced, method.2 balanced⟩

/-- A comment right behind the `{` of the body: skipping takes it for code, and the `}` in it ends
the body of the conditional. -/
theorem skipped_body_ends_in_comment :
    ¬ ∀ (limit depth : Nat) (kind : ScopeKind) (body : Body false) (rest : List Char),
      body.statementsArePlain = true → depth + 1 + body.depth ≤ limit →
      ∃ doc left, readScope ⟨limit, depth + 1⟩ kind (body.text ++ '}' :: rest) = .closed doc left ∧
        skipBody (skipCall ("(c) \x7b".toList ++ (body.text ++ '}' :: rest))) = left := by
  intro always
  let body : Body false :=
    .cons (.comment ⟨[' '], by decide⟩ ⟨[' ', '}'], by decide⟩) .lineFeed
      (.cons (.setting ⟨[' '], by decide⟩
        ⟨⟨['a'], by decide, by decide, by decide, by decide, by decide⟩, by decide⟩
        ⟨[' '], by decide, by decide⟩ ⟨['1'], by decide⟩) .lineFeed
        (.last (.blank ⟨[], by decide⟩)))
  have read : readScope ⟨1, 1⟩ .script (body.text ++ '}' :: "\nk 2".toList) =
      .closed [("a", .text "1")] "\nk 2".toList := by with_unfolding_all rfl
  have skipped : skipBody (skipCall ("(c) \x7b".toList ++ (body.text ++ '}' :: "\nk 2".toList))) =
      "\n a 1\n\x7d\nk 2".toList := by with_unfolding_all rfl
  obtain ⟨doc, left, closed, same⟩ := always 1 0 .script body "\nk 2".toList (by decide) (by decide)
  rw [read] at closed
  rw [skipped] at same
  cases closed
  exact absurd same (by decide)

end BuildScript.Bodies
