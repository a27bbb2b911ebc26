import BuildScript.Proofs.Braces.Balance
import BuildScript.Proofs.Moves

/-!
# Where a block ends

The reader has no count of braces: a `{` opens a block and a `}` closes the innermost one.  Behind
the `}` of a block the rest of the line does not count, and a `{` that stands there is dropped while
the `}` that matches it is not.  The body of a block with balanced braces is therefore read to its
end exactly if none of its lines has a `{` behind a `}`.
-/

namespace BuildScript.Braces

open Text

/-! ## Lines with one block -/

/-- What a line has shown so far. -/
inductive LineStart where
  /-- A part of its first word, or nothing yet. -/
  | word (word : String)
  /-- Its first word and what follows. -/
  | behind (word : String)
  /-- The `}` of a block. -/
  | closed

/-- What a line has shown with one more character that is no brace and no line break. -/
def LineStart.next (start : LineStart) (c : Char) : LineStart :=
  match start with
  | .word w =>
    if isDelimiter c then if w = "" then .word "" else .behind w
    else .word (w.push c)
  | start => start

/-- The first word of a line, which is the key of a block on it. -/
def LineStart.firstWord? : LineStart → Option String
  | .word w => some w
  | .behind w => some w
  | .closed => none

/-- No line has a `{` behind a `}`.  The body of a dependencies block does not count. -/
def OneBlockPerLine (start : LineStart) : List Char → Prop
  | [] => True
  | c :: r =>
    if isLineBreak c then OneBlockPerLine (.word "") r
    else if c == '}' then OneBlockPerLine .closed r
    else if c == '{' then
      match start.firstWord? with
      | none => False
      | some key =>
        have := (afterBraces_suffix 0 r).length_le
        if key = "dependencies" then OneBlockPerLine .closed (afterBraces 0 r)
        else OneBlockPerLine (.word "") r
    else OneBlockPerLine (start.next c) r
  termination_by s => s.length

theorem oneBlockPerLine_nil (start : LineStart) : OneBlockPerLine start [] := by
  rw [OneBlockPerLine]
  trivial

theorem oneBlockPerLine_lineBreak (start : LineStart) {c : Char} (h : isLineBreak c = true)
    (r : List Char) : OneBlockPerLine start (c :: r) ↔ OneBlockPerLine (.word "") r := by
  rw [OneBlockPerLine, if_pos h]

theorem oneBlockPerLine_closing (start : LineStart) (r : List Char) :
    OneBlockPerLine start ('}' :: r) ↔ OneBlockPerLine .closed r := by
  rw [OneBlockPerLine]
  simp [isLineBreak]

theorem oneBlockPerLine_dropped (r : List Char) : ¬ OneBlockPerLine .closed ('{' :: r) := by
  rw [OneBlockPerLine]
  simp [isLineBreak, LineStart.firstWord?]

theorem oneBlockPerLine_opening {start : LineStart} {key : String}
    (h : start.firstWord? = some key) (r : List Char) :
    OneBlockPerLine start ('{' :: r) ↔
      if key = "dependencies" then OneBlockPerLine .closed (afterBraces 0 r)
      else OneBlockPerLine (.word "") r := by
  rw [OneBlockPerLine]
  simp [isLineBreak, h]

theorem oneBlockPerLine_other (start : LineStart) {c : Char} (h : endsValue c = false)
    (r : List Char) : OneBlockPerLine start (c :: r) ↔ OneBlockPerLine (start.next c) r := by
  obtain ⟨lineBreak, opening, closing⟩ := endsValue_eq_false_iff.1 h
  rw [OneBlockPerLine]
  simp [lineBreak, opening, closing]

/-! ## Reading plain texts -/

/-- What a line of the reader has shown. -/
def lineStart : Line → LineStart
  | .key token => .word token
  | .value name _ => .behind name
  | .done => .closed

/-- The word that is being read. -/
def currentWord? : Line → Option (List Char)
  | .key token => some token.toList
  | .value _ _ => none
  | .done => none

variable {nesting : Nesting} {kind : ScopeKind} {doc : Document} {outer : List Frame}

/-- Off braces and line breaks, a character of a plain text without keywords leads to the next one
in the same scope. -/
theorem step_plain {line : Line} {c : Char} {s : List Char} (plain : IsPlain (c :: s))
    (inValue : endsValue c = false) (free : NoKeywords (currentWord? line) (c :: s))
    (r : List Char) :
    ∃ next, step nesting ⟨kind, doc, line, outer⟩ c r = .next ⟨kind, doc, next, outer⟩ r ∧
      lineStart next = (lineStart line).next c ∧ NoKeywords (currentWord? next) s := by
  obtain ⟨paren, -, bracket, -⟩ := plain.not_bracket (c := c) (by simp)
  cases line with
  | done =>
    obtain ⟨lineBreak, -, closing⟩ := endsValue_eq_false_iff.1 inValue
    exact ⟨.done, step_done lineBreak closing r, rfl, NoKeywords.tail free⟩
  | value name raw =>
    rw [step_value name raw inValue]
    by_cases skipped : (raw = "" && isDelimiter c) = true
    · exact ⟨.value name raw, by simp [valueStep, skipped], rfl, NoKeywords.tail free⟩
    · refine ⟨.value name (raw.push c), ?_, rfl, NoKeywords.tail free⟩
      simp only [valueStep, skipped, Bool.false_eq_true, if_false]
      simp [bracket]
  | key token =>
    rw [step_key token inValue]
    cases delimiter : isDelimiter c with
    | false =>
      have goesOn : endsWord c = false :=
        endsWord_eq_false_iff.2 ⟨delimiter, endsValue_eq_false_iff.1 inValue⟩
      refine ⟨.key (token.push c), keyStep_of_endsWord goesOn paren r, ?_, ?_⟩
      · simp [lineStart, LineStart.next, delimiter]
      · simpa [currentWord?] using NoKeywords.push free goesOn
    | true =>
      obtain ⟨notKeyword, next⟩ := NoKeywords.word free (by simp [endsWord, delimiter])
      by_cases empty : token = ""
      · subst empty
        refine ⟨.key "", by simp [keyStep, paren, delimiter], ?_, next⟩
        simp [lineStart, LineStart.next, delimiter]
      · have others : token ≠ "if" ∧ token ≠ "else" ∧ token ≠ "def" := by
          refine ⟨?_, ?_, ?_⟩ <;> rintro rfl <;> exact notKeyword (by decide)
        refine ⟨.value token "", by simp [keyStep, paren, delimiter, empty, others], ?_, ?_⟩
        · simp [lineStart, LineStart.next, delimiter, empty]
        · exact next.forget

/-- The margin of a plain text may as well be read as the start of a key. -/
theorem read_margin_plain {s : List Char} (plain : IsPlain s) (rest : List Char) :
    read nesting ⟨kind, doc, .key "", outer⟩ (margin (s ++ '}' :: rest)) =
      read nesting ⟨kind, doc, .key "", outer⟩ (s ++ '}' :: rest) := by
  have blanks : ∀ c ∈ s.takeWhile isIndent, isDelimiter c = true :=
    fun c hc => isDelimiter_of_isIndent (List.all_eq_true.1 List.all_takeWhile c hc)
  have whole : s ++ '}' :: rest = s.takeWhile isIndent ++ (skipIndent s ++ '}' :: rest) := by
    rw [← List.append_assoc, skipIndent, List.takeWhile_append_dropWhile]
  rw [plain.margin_append, whole, read_leading blanks]

/-- Unless the limit on nesting stops it, reading closes the scope no later than before the given
rest, and exactly there under a condition. -/
def ClosesBy (nesting : Nesting) (st : State) (s rest : List Char) (exactly : Prop) : Prop :=
  (∀ left, read nesting st s ≠ .tooDeep left) →
    ∃ doc left, read nesting st s = .closed doc left ∧ rest.length ≤ left.length ∧
      (left = rest ↔ exactly)

theorem ClosesBy.of_read {st st' : State} {s s' rest : List Char} {exactly exactly' : Prop}
    (h : ClosesBy nesting st' s' rest exactly')
    (same : read nesting st s = read nesting st' s') (iff : exactly ↔ exactly') :
    ClosesBy nesting st s rest exactly := by
  intro open_
  rw [same] at open_ ⊢
  obtain ⟨doc, left, closed, less, exact_⟩ := h open_
  exact ⟨doc, left, closed, less, exact_.trans iff.symm⟩

/-- In a scope with fewer blocks around it than the text closes, the last `}` is not reached. -/
theorem closesBy_closed {st : State} {c : Char} {r rest : List Char} {doc : Document}
    {exactly : Prop} (h : step nesting st c r = .closed doc r) (longer : rest.length ≤ r.length)
    (iff : r = rest ↔ exactly) : ClosesBy nesting st (c :: r) rest exactly :=
  fun _ => ⟨doc, r, read_of_closed h, longer, iff⟩

theorem step_closing_outermost (inside : 0 < nesting.depth) (line : Line) (r : List Char) :
    step nesting ⟨kind, doc, line, []⟩ '}' r = .closed (line.store kind doc) r := by
  simp [step, isLineBreak, closeBlock, Nat.ne_of_gt inside, State.finished]

theorem blockKey?_eq_firstWord? {line : Line} {s : List Char}
    (free : NoKeywords (currentWord? line) ('{' :: s)) :
    line.blockKey? = (lineStart line).firstWord? := by
  cases line with
  | done => rfl
  | value name raw => rfl
  | key token =>
    have notElse : token ≠ "else" := by
      rintro rfl
      exact (NoKeywords.word free (by decide)).1 (by decide)
    simp [Line.blockKey?, notElse, lineStart, LineStart.firstWord?]

theorem read_tooDeep {line : Line} {key : String} (h : line.blockKey? = some key)
    (full : nesting.limit ≤ nesting.depth + outer.length) (r : List Char) :
    read nesting ⟨kind, doc, line, outer⟩ ('{' :: r) = .tooDeep r := by
  apply read_of_tooDeep
  simp [step_opening h, openBlock, full]

/-- From every place in a line, and inside no more blocks than the text still closes, reading the
text ends behind it if so many blocks are open and every line has one block. -/
def ReadsBalanced (nesting : Nesting) (rest s : List Char) : Prop :=
  ∀ (kind : ScopeKind) (doc : Document) (line : Line) (outer : List Frame) (depth : Nat),
    IsPlain s → NoKeywords (currentWord? line) s → Balanced depth s → outer.length ≤ depth →
    ClosesBy nesting ⟨kind, doc, line, outer⟩ (s ++ '}' :: rest) rest
      (outer.length = depth ∧ OneBlockPerLine (lineStart line) s)

variable {rest s : List Char}

theorem readsBalanced_nil (inside : 0 < nesting.depth) : ReadsBalanced nesting rest [] := by
  intro kind doc line outer depth plain free balanced within
  have none : outer.length = 0 := by have := balanced.nil; omega
  obtain rfl := List.length_eq_zero_iff.1 none
  refine closesBy_closed (step_closing_outermost inside line rest) (Nat.le_refl _) ?_
  simp [balanced.nil, oneBlockPerLine_nil]

/-- The next line begins afresh. -/
theorem readsBalanced_lineBreak {c : Char} (lineBreak : isLineBreak c = true)
    (ih : ReadsBalanced nesting rest s) : ReadsBalanced nesting rest (c :: s) := by
  intro kind doc line outer depth plain free balanced within
  have other : c ≠ '{' ∧ c ≠ '}' := by
    constructor <;> rintro rfl <;> cases lineBreak
  have fresh := NoKeywords.next free (by simp [endsWord, lineBreak])
  have onward := ih kind (line.store kind doc) (.key "") outer depth plain.tail fresh
    (balanced.tail other.1 other.2) within
  refine onward.of_read ?_ ?_
  · rw [List.cons_append, read_lineBreak lineBreak, read_margin_plain plain.tail]
  · rw [oneBlockPerLine_lineBreak _ lineBreak]
    rfl

theorem readsBalanced_closing (inside : 0 < nesting.depth) (ih : ReadsBalanced nesting rest s) :
    ReadsBalanced nesting rest ('}' :: s) := by
  intro kind doc line outer depth plain free balanced within
  obtain ⟨less, rfl, closed⟩ := balanced.closing
  rw [List.cons_append]
  cases outer with
  | nil =>
    -- An earlier `{` was dropped, and the block ends too soon.
    have longer : rest.length < (s ++ '}' :: rest).length := by simp; omega
    refine closesBy_closed (step_closing_outermost inside line _) (Nat.le_of_lt longer) ?_
    constructor
    · intro same
      rw [same] at longer
      exact absurd longer (Nat.lt_irrefl _)
    · rintro ⟨same, -⟩
      cases same
  | cons frame outer =>
    have onward := ih frame.kind
      (frame.kind.storeBlock frame.key (kind.value (line.store kind doc)) frame.doc) .done outer
      less plain.tail (NoKeywords.next free (by decide)).forget closed (by simpa using within)
    refine onward.of_read (read_closing line frame _) ?_
    rw [oneBlockPerLine_closing]
    simp [lineStart]

/-- The `{` is dropped, and from now on the text closes more blocks than are open. -/
theorem closesBy_dropped {depth : Nat} (ih : ReadsBalanced nesting rest s)
    (plain : IsPlain ('{' :: s)) (free : NoKeywords (currentWord? .done) ('{' :: s))
    (balanced : Balanced depth ('{' :: s)) (within : outer.length ≤ depth) :
    ClosesBy nesting ⟨kind, doc, .done, outer⟩ ('{' :: s ++ '}' :: rest) rest
      (outer.length = depth ∧ OneBlockPerLine (lineStart .done) ('{' :: s)) := by
  have onward := ih kind doc .done outer (depth + 1) plain.tail (NoKeywords.tail free)
    balanced.opening (by omega)
  refine onward.of_read (read_of_next (step_done (by decide) (by decide) _)) ?_
  constructor
  · rintro ⟨-, impossible⟩
    exact absurd impossible (oneBlockPerLine_dropped s)
  · rintro ⟨same, -⟩
    omega

theorem closesBy_dependencies {line : Line} {depth : Nat}
    (ih : ReadsBalanced nesting rest (afterBraces 0 s)) (plain : IsPlain ('{' :: s))
    (free : NoKeywords (currentWord? line) ('{' :: s)) (balanced : Balanced depth ('{' :: s))
    (within : outer.length ≤ depth) (opens : line.blockKey? = some "dependencies")
    (room : nesting.depth + outer.length < nesting.limit) :
    ClosesBy nesting ⟨kind, doc, line, outer⟩ ('{' :: s ++ '}' :: rest) rest
      (outer.length = depth ∧ OneBlockPerLine (lineStart line) ('{' :: s)) := by
  obtain ⟨behind, closed⟩ := blockDependencies_plain plain.tail rest balanced.opening
  have suffix := afterBraces_suffix 0 s
  have onward := ih kind
    (kind.storeBlock "dependencies" (.dependencies (blockDependencies (s ++ '}' :: rest)).1) doc)
    .done outer depth (plain.tail.of_suffix suffix)
    ((NoKeywords.next free (by decide)).forget.of_suffix suffix) closed within
  refine onward.of_read (by rw [List.cons_append, read_dependencies opens room, behind]) ?_
  rw [oneBlockPerLine_opening (blockKey?_eq_firstWord? free ▸ opens), if_pos rfl]
  rfl

theorem closesBy_block {line : Line} {key : String} {depth : Nat}
    (ih : ReadsBalanced nesting rest s) (plain : IsPlain ('{' :: s))
    (free : NoKeywords (currentWord? line) ('{' :: s)) (balanced : Balanced depth ('{' :: s))
    (within : outer.length ≤ depth) (opens : line.blockKey? = some key)
    (other : key ≠ "dependencies") (room : nesting.depth + outer.length < nesting.limit) :
    ClosesBy nesting ⟨kind, doc, line, outer⟩ ('{' :: s ++ '}' :: rest) rest
      (outer.length = depth ∧ OneBlockPerLine (lineStart line) ('{' :: s)) := by
  have onward := ih (kind.ofBlock key) [] (.key "") (⟨key, kind, doc⟩ :: outer) (depth + 1)
    plain.tail (NoKeywords.next free (by decide)) balanced.opening (by simpa using within)
  refine onward.of_read ?_ ?_
  · rw [List.cons_append, read_opening opens other room, read_margin_plain plain.tail]
  · rw [oneBlockPerLine_opening (blockKey?_eq_firstWord? free ▸ opens), if_neg other]
    simp [lineStart]

theorem readsBalanced_opening (ih : ∀ t, t <:+ s → ReadsBalanced nesting rest t) :
    ReadsBalanced nesting rest ('{' :: s) := by
  intro kind doc line outer depth plain free balanced within
  cases opens : line.blockKey? with
  | none =>
    have same : line = .done := by
      rw [blockKey?_eq_firstWord? free] at opens
      cases line <;> first | rfl | cases opens
    subst same
    exact closesBy_dropped (ih s (List.suffix_refl s)) plain free balanced within
  | some key =>
    intro open_
    have room : nesting.depth + outer.length < nesting.limit :=
      Nat.lt_of_not_le fun full => open_ _ (read_tooDeep opens full _)
    revert open_
    by_cases special : key = "dependencies"
    · subst special
      exact closesBy_dependencies (ih _ (afterBraces_suffix 0 s)) plain free balanced within opens
        room
    · exact closesBy_block (ih s (List.suffix_refl s)) plain free balanced within opens special room

theorem readsBalanced_other {c : Char} (inValue : endsValue c = false)
    (ih : ReadsBalanced nesting rest s) : ReadsBalanced nesting rest (c :: s) := by
  intro kind doc line outer depth plain free balanced within
  obtain ⟨-, opening, closing⟩ := endsValue_eq_false_iff.1 inValue
  obtain ⟨next, taken, shown, free'⟩ := step_plain plain inValue free (s ++ '}' :: rest)
  have onward := ih kind doc next outer depth plain.tail free' (balanced.tail opening closing)
    within
  refine onward.of_read (read_of_next taken) ?_
  rw [oneBlockPerLine_other _ inValue, shown]

theorem readsBalanced (inside : 0 < nesting.depth) (rest s : List Char) :
    ReadsBalanced nesting rest s := by
  match s with
  | [] => exact readsBalanced_nil inside
  | c :: s =>
    by_cases lineBreak : isLineBreak c = true
    · exact readsBalanced_lineBreak lineBreak (readsBalanced inside rest s)
    by_cases closing : c = '}'
    · subst closing
      exact readsBalanced_closing inside (readsBalanced inside rest s)
    by_cases opening : c = '{'
    · subst opening
      refine readsBalanced_opening fun t suffix => ?_
      have := suffix.length_le
      exact readsBalanced inside rest t
    have inValue : endsValue c = false :=
      endsValue_eq_false_iff.2 ⟨by simpa using lineBreak, opening, closing⟩
    exact readsBalanced_other inValue (readsBalanced inside rest s)
termination_by s.length

/-! ## The end of a block -/

/-- A block with a plain body of balanced braces, read as far as the limit on nesting allows, ends
no later than at the `}` behind its body.  It ends there exactly if no line of the body has a `{`
behind a `}`. -/
theorem readScope_ends_behind_body_iff (nesting : Nesting) (inside : 0 < nesting.depth)
    (kind : ScopeKind) {body : List Char} (plain : IsPlain body)
    (free : ∀ w ∈ words body, w ∉ keywords) (balanced : Balanced 0 body) (rest : List Char)
    (within : ∀ left, readScope nesting kind (body ++ '}' :: rest) ≠ .tooDeep left) :
    ∃ doc left, readScope nesting kind (body ++ '}' :: rest) = .closed doc left ∧
      rest.length ≤ left.length ∧ (left = rest ↔ OneBlockPerLine (.word "") body) := by
  have start : NoKeywords (currentWord? (.key "")) body := ⟨by simp, by simpa using free⟩
  have closes := readsBalanced inside rest body kind [] (.key "") [] 0 plain start balanced
    (Nat.le_refl _)
  rw [readScope, State.start, read_margin_plain plain] at within ⊢
  simpa [lineStart] using closes within

theorem balanced_of_take {depth : Nat} {s : List Char}
    (within : ∀ n ≤ s.length, (s.take n).count '}' ≤ depth + (s.take n).count '{')
    (total : s.count '}' = depth + s.count '{') : Balanced depth s := by
  refine ⟨?_, total⟩
  intro p hp
  rw [List.prefix_iff_eq_take.1 hp]
  exact within p.length hp.length_le

theorem readScope_ends_behind_nested_blocks :
    Balanced 0 "a \x7b b \x7b c 1 \x7d d \x7d e\n\x7b\x7d\n".toList ∧
      ∃ doc, readScope ⟨4, 1⟩ .script "a \x7b b \x7b c 1 \x7d d \x7d e\n\x7b\x7d\n\x7d\nf 1".toList =
        .closed doc "\nf 1".toList := by
  have balanced : Balanced 0 "a \x7b b \x7b c 1 \x7d d \x7d e\n\x7b\x7d\n".toList :=
    balanced_of_take (by decide) (by decide)
  refine ⟨balanced, ?_⟩
  have ends := readScope_ends_behind_body_iff ⟨4, 1⟩ (by decide) .script
    (by decide) (by decide) balanced "\nf 1".toList ?_
  · obtain ⟨doc, left, closed, -, iff⟩ := ends
    have : left = "\nf 1".toList := iff.2 (by with_unfolding_all trivial)
    exact ⟨doc, this ▸ closed⟩
  · intro left tooDeep
    obtain ⟨doc, rest, closed⟩ := readScope_closes ⟨4, 1⟩ .script
      ("a \x7b b \x7b c 1 \x7d d \x7d e\n\x7b\x7d\n".toList ++ '}' :: "\nf 1".toList) (by decide)
    cases closed.symm.trans tooDeep

/-- Two blocks on a line: the `{` of the second one is dropped, and its `}` closes the block around
both. -/
theorem readScope_ends_before_body_ends :
    ¬ ∀ (nesting : Nesting) (kind : ScopeKind) (body rest : List Char), 0 < nesting.depth →
      IsPlain body → (∀ w ∈ words body, w ∉ keywords) → Balanced 0 body →
      (∀ left, readScope nesting kind (body ++ '}' :: rest) ≠ .tooDeep left) →
      ∃ doc, readScope nesting kind (body ++ '}' :: rest) = .closed doc rest := by
  intro always
  have early : readScope ⟨4, 1⟩ .script (" a \x7b \x7d b \x7b \x7d\n y 1\n".toList ++ '}' :: ['\n']) =
      .closed [("a", .document [])] "\n y 1\n\x7d\n".toList := by with_unfolding_all rfl
  obtain ⟨doc, late⟩ :=
    always ⟨4, 1⟩ .script " a \x7b \x7d b \x7b \x7d\n y 1\n".toList ['\n'] (by decide)
    (by decide) (by decide) (balanced_of_take (by decide) (by decide))
    (by rw [early]; intro left h; cases h)
  rw [early] at late
  exact absurd (Reading.closed.inj late).2 (by decide)

end BuildScript.Braces
