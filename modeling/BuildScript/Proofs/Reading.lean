import BuildScript.Script
import BuildScript.Proofs.Roles

/-!
# Runs of the reader

How a run of the reader composes from its steps, and what it does with a stretch of text that one
part of a line takes as a whole: a word of a key, the separators behind it, the text of a value and
the rest of a line whose result is known.
-/

namespace BuildScript

/-! ## Texts -/

/-- A property of every character of a text is decided along the text, not over all characters. -/
instance (priority := high) decidableForallMemText {p : Char → Prop} [DecidablePred p]
    (s : List Char) : Decidable (∀ c ∈ s, p c) :=
  List.decidableBAll p s

/-- The text before an end of the text. -/
theorem take_length_sub (p rest : List Char) :
    (p ++ rest).take ((p ++ rest).length - rest.length) = p := by
  rw [List.length_append, Nat.add_sub_cancel, List.take_left]

theorem push_append_ofList (s : String) (c : Char) (r : List Char) :
    s.push c ++ String.ofList r = s ++ String.ofList (c :: r) := by
  apply String.ext
  simp

theorem push_ne_empty (s : String) (c : Char) : s.push c ≠ "" := by
  intro h
  have := congrArg String.toList h
  simp at this

theorem ofList_ne_empty {s : List Char} (h : s ≠ []) : String.ofList s ≠ "" := by
  intro empty
  have := congrArg String.toList empty
  exact h (by simpa using this)

/-! ## Steps in a run -/

theorem read_nil (nesting : Nesting) (st : State) :
    read nesting st [] = .closed (unwind st.finished st.kind st.outer) [] := by
  rw [read]

theorem read_of_next {nesting : Nesting} {st next : State} {c : Char} {r rest : List Char}
    (h : step nesting st c r = .next next rest) :
    read nesting st (c :: r) = read nesting next rest := by
  rw [read]
  split <;> simp_all

theorem read_of_closed {nesting : Nesting} {st : State} {c : Char} {r rest : List Char}
    {doc : Document} (h : step nesting st c r = .closed doc rest) :
    read nesting st (c :: r) = .closed doc rest := by
  rw [read]
  split <;> simp_all

theorem read_of_tooDeep {nesting : Nesting} {st : State} {c : Char} {r rest : List Char}
    (h : step nesting st c r = .tooDeep rest) :
    read nesting st (c :: r) = .tooDeep rest := by
  rw [read]
  split <;> simp_all

theorem read_of_same_step {st st' : State} {c : Char} {r : List Char}
    (h : step nesting st c r = step nesting st' c r) :
    read nesting st (c :: r) = read nesting st' (c :: r) := by
  cases taken : step nesting st' c r with
  | next next rest => rw [read_of_next taken, read_of_next (h.trans taken)]
  | closed doc rest => rw [read_of_closed taken, read_of_closed (h.trans taken)]
  | tooDeep rest => rw [read_of_tooDeep taken, read_of_tooDeep (h.trans taken)]

/-! ## Steps inside a line -/

theorem callStep_eq_next (st : State) (token : String) (s : List Char) :
    ∃ line rest, callStep st token s = .next { st with line := line } rest := by
  simp only [callStep]
  split <;> exact ⟨_, _, rfl⟩

theorem keyStep_eq_next (st : State) (token : String) (c : Char) (r : List Char) :
    ∃ line rest, keyStep st token c r = .next { st with line := line } rest := by
  unfold keyStep
  repeat' split
  all_goals first | exact callStep_eq_next st token (c :: r) | exact ⟨_, _, rfl⟩

theorem valueStep_eq_next (st : State) (key raw : String) (c : Char) (r : List Char) :
    ∃ doc line rest, valueStep st key raw c r = .next { st with doc := doc, line := line } rest := by
  unfold valueStep
  repeat' split
  all_goals exact ⟨_, _, _, rfl⟩

/-! ## Characters of a line -/

/-- A character that ends a word: a delimiter, a line break or a brace. -/
def endsWord (c : Char) : Bool := isDelimiter c || isLineBreak c || c == '{' || c == '}'

/-- A character that ends the text of a value: a line break or a brace. -/
def endsValue (c : Char) : Bool := isLineBreak c || c == '{' || c == '}'

theorem endsWord_eq_false_iff {c : Char} :
    endsWord c = false ↔ isDelimiter c = false ∧ isLineBreak c = false ∧ c ≠ '{' ∧ c ≠ '}' := by
  simp [endsWord, and_assoc]

theorem endsValue_eq_false_iff {c : Char} :
    endsValue c = false ↔ isLineBreak c = false ∧ c ≠ '{' ∧ c ≠ '}' := by
  simp [endsValue, and_assoc]

theorem endsValue_of_isDelimiter {c : Char} (h : isDelimiter c = true) : endsValue c = false := by
  rcases eq_of_isDelimiter h with rfl | rfl | rfl <;> decide

theorem isDelimiter_of_isIndent {c : Char} (h : isIndent c = true) : isDelimiter c = true := by
  simp [isDelimiter, h]

/-! ## Stretches of text -/

variable {nesting : Nesting} {kind : ScopeKind} {doc : Document} {outer : List Frame}

theorem step_key (token : String) {c : Char} (h : endsValue c = false) (r : List Char) :
    step nesting ⟨kind, doc, .key token, outer⟩ c r =
      keyStep ⟨kind, doc, .key token, outer⟩ token c r := by
  obtain ⟨lineBreak, opening, closing⟩ := endsValue_eq_false_iff.1 h
  simp [step, lineBreak, opening, closing]

theorem step_value (key raw : String) {c : Char} (h : endsValue c = false) (r : List Char) :
    step nesting ⟨kind, doc, .value key raw, outer⟩ c r =
      valueStep ⟨kind, doc, .value key raw, outer⟩ key raw c r := by
  obtain ⟨lineBreak, opening, closing⟩ := endsValue_eq_false_iff.1 h
  simp [step, lineBreak, opening, closing]

theorem step_done {c : Char} (lineBreak : isLineBreak c = false) (closing : c ≠ '}')
    (r : List Char) :
    step nesting ⟨kind, doc, .done, outer⟩ c r = .next ⟨kind, doc, .done, outer⟩ r := by
  simp [step, lineBreak, closing]

theorem keyStep_of_endsWord {st : State} {token : String} {c : Char} (h : endsWord c = false)
    (paren : c ≠ '(') (r : List Char) :
    keyStep st token c r = .next { st with line := .key (token.push c) } r := by
  simp [keyStep, paren, (endsWord_eq_false_iff.1 h).1]

theorem read_word (token : String) {word : List Char}
    (h : ∀ c ∈ word, endsWord c = false ∧ c ≠ '(') (rest : List Char) :
    read nesting ⟨kind, doc, .key token, outer⟩ (word ++ rest) =
      read nesting ⟨kind, doc, .key (token ++ String.ofList word), outer⟩ rest := by
  induction word generalizing token with
  | nil => simp
  | cons c word ih =>
    obtain ⟨goesOn, paren⟩ := h c (by simp)
    have inValue : endsValue c = false :=
      endsValue_eq_false_iff.2 (endsWord_eq_false_iff.1 goesOn).2
    have taken : step nesting ⟨kind, doc, .key token, outer⟩ c (word ++ rest) =
        .next ⟨kind, doc, .key (token.push c), outer⟩ (word ++ rest) := by
      rw [step_key token inValue, keyStep_of_endsWord goesOn paren]
    rw [List.cons_append, read_of_next taken, ih (token.push c) fun d hd => h d (by simp [hd]),
      push_append_ofList]

/-- Delimiters before a key do not count. -/
theorem read_leading {separators : List Char} (h : ∀ c ∈ separators, isDelimiter c = true)
    (rest : List Char) :
    read nesting ⟨kind, doc, .key "", outer⟩ (separators ++ rest) =
      read nesting ⟨kind, doc, .key "", outer⟩ rest := by
  induction separators with
  | nil => rfl
  | cons c separators ih =>
    have delimiter := h c (by simp)
    have paren : c ≠ '(' := by rintro rfl; simp [isDelimiter, isIndent] at delimiter
    have taken : step nesting ⟨kind, doc, .key "", outer⟩ c (separators ++ rest) =
        .next ⟨kind, doc, .key "", outer⟩ (separators ++ rest) := by
      rw [step_key "" (endsValue_of_isDelimiter delimiter)]
      simp [keyStep, paren, delimiter]
    rw [List.cons_append, read_of_next taken, ih fun d hd => h d (by simp [hd])]

/-- Delimiters before a value do not count. -/
theorem read_separators (key : String) {separators : List Char}
    (h : ∀ c ∈ separators, isDelimiter c = true) (rest : List Char) :
    read nesting ⟨kind, doc, .value key "", outer⟩ (separators ++ rest) =
      read nesting ⟨kind, doc, .value key "", outer⟩ rest := by
  induction separators with
  | nil => rfl
  | cons c separators ih =>
    have delimiter := h c (by simp)
    have taken : step nesting ⟨kind, doc, .value key "", outer⟩ c (separators ++ rest) =
        .next ⟨kind, doc, .value key "", outer⟩ (separators ++ rest) := by
      rw [step_value key "" (endsValue_of_isDelimiter delimiter)]
      simp [valueStep, delimiter]
    rw [List.cons_append, read_of_next taken, ih fun d hd => h d (by simp [hd])]

theorem read_value (key : String) {raw : String} (started : raw ≠ "") {value : List Char}
    (h : ∀ c ∈ value, endsValue c = false) (rest : List Char) :
    read nesting ⟨kind, doc, .value key raw, outer⟩ (value ++ rest) =
      read nesting ⟨kind, doc, .value key (raw ++ String.ofList value), outer⟩ rest := by
  induction value generalizing raw with
  | nil => simp
  | cons c value ih =>
    have taken : step nesting ⟨kind, doc, .value key raw, outer⟩ c (value ++ rest) =
        .next ⟨kind, doc, .value key (raw.push c), outer⟩ (value ++ rest) := by
      rw [step_value key raw (h c (by simp))]
      simp [valueStep, started]
    rw [List.cons_append, read_of_next taken,
      ih (push_ne_empty raw c) fun d hd => h d (by simp [hd]), push_append_ofList]

theorem read_done {tail : List Char} (h : ∀ c ∈ tail, isLineBreak c = false ∧ c ≠ '}')
    (rest : List Char) :
    read nesting ⟨kind, doc, .done, outer⟩ (tail ++ rest) =
      read nesting ⟨kind, doc, .done, outer⟩ rest := by
  induction tail with
  | nil => rfl
  | cons c tail ih =>
    obtain ⟨lineBreak, brace⟩ := h c (by simp)
    rw [List.cons_append, read_of_next (step_done lineBreak brace (tail ++ rest)),
      ih fun d hd => h d (by simp [hd])]

/-! ## Keywords -/

theorem step_if {c : Char} (h : c = '(' ∨ isDelimiter c = true) (r : List Char) :
    step nesting ⟨kind, doc, .key "if", outer⟩ c r =
      .next ⟨kind, doc, .done, outer⟩ (skipConditional (c :: r)) := by
  rcases h with rfl | delimiter
  · rfl
  · have paren : c ≠ '(' := by rintro rfl; cases delimiter
    rw [step_key "if" (endsValue_of_isDelimiter delimiter)]
    simp [keyStep, paren, delimiter]

theorem step_else {c : Char} (h : c = '{' ∨ isDelimiter c = true) (r : List Char) :
    step nesting ⟨kind, doc, .key "else", outer⟩ c r =
      .next ⟨kind, doc, .done, outer⟩ (skipAlternative (c :: r)) := by
  rcases h with rfl | delimiter
  · rfl
  · have paren : c ≠ '(' := by rintro rfl; cases delimiter
    rw [step_key "else" (endsValue_of_isDelimiter delimiter)]
    simp [keyStep, paren, delimiter]

/-! ## Line breaks and braces -/

theorem read_lineBreak {c : Char} (h : isLineBreak c = true) (line : Line) (r : List Char) :
    read nesting ⟨kind, doc, line, outer⟩ (c :: r) =
      read nesting ⟨kind, line.store kind doc, .key "", outer⟩ (margin r) := by
  apply read_of_next
  simp [step, h, State.newLine]

theorem step_opening {line : Line} {key : String} (h : line.blockKey? = some key) (r : List Char) :
    step nesting ⟨kind, doc, line, outer⟩ '{' r =
      openBlock nesting ⟨kind, doc, line, outer⟩ key r := by
  cases line with
  | key token =>
    have other : token ≠ "else" := by rintro rfl; simp [Line.blockKey?] at h
    have same : token = key := by simpa [Line.blockKey?, other] using h
    subst same
    simp [step, isLineBreak, other]
  | value name raw =>
    cases h
    simp [step, isLineBreak]
  | done => cases h

theorem read_opening {line : Line} {key : String} (h : line.blockKey? = some key)
    (document : key ≠ "dependencies") (room : nesting.depth + outer.length < nesting.limit)
    (r : List Char) :
    read nesting ⟨kind, doc, line, outer⟩ ('{' :: r) =
      read nesting ⟨kind.ofBlock key, [], .key "", ⟨key, kind, doc⟩ :: outer⟩ (margin r) := by
  apply read_of_next
  simp [step_opening h, openBlock, State.enter, document, Nat.not_le.2 room]

theorem read_dependencies {line : Line} (h : line.blockKey? = some "dependencies")
    (room : nesting.depth + outer.length < nesting.limit) (r : List Char) :
    read nesting ⟨kind, doc, line, outer⟩ ('{' :: r) =
      read nesting ⟨kind, kind.storeBlock "dependencies" (.dependencies (blockDependencies r).1) doc,
        .done, outer⟩ (blockDependencies r).2 := by
  apply read_of_next
  simp [step_opening h, openBlock, Nat.not_le.2 room, State.withBlock]

theorem read_closing (line : Line) (frame : Frame) (r : List Char) :
    read nesting ⟨kind, doc, line, frame :: outer⟩ ('}' :: r) =
      read nesting ⟨frame.kind, frame.kind.storeBlock frame.key
        (kind.value (line.store kind doc)) frame.doc, .done, outer⟩ r := by
  apply read_of_next
  simp [step, isLineBreak, closeBlock, State.leave, State.finished]

/-- The key of the block that a character opens, if it opens one. -/
def State.opens? (st : State) (c : Char) : Option String :=
  if c = '{' then st.line.blockKey? else none

theorem step_of_opens? {st : State} {c : Char} {key : String} (h : st.opens? c = some key)
    (nesting : Nesting) (r : List Char) : step nesting st c r = openBlock nesting st key r := by
  unfold State.opens? at h
  split at h
  · next brace =>
    subst brace
    exact step_opening h r
  · cases h

theorem eq_opening_of_opens? {st : State} {c : Char} {key : String}
    (h : st.opens? c = some key) : c = '{' := by
  unfold State.opens? at h
  split at h
  · assumption
  · cases h

/-- Only braces open or close a block; every other step leads on in the same block. -/
theorem step_cases (nesting : Nesting) (st : State) (c : Char) :
    (c = '}' ∧ ∀ r, step nesting st c r = closeBlock nesting st r) ∨
      (∃ key, st.opens? c = some key) ∨
      ∀ r, ∃ next rest, step nesting st c r = .next next rest ∧ next.outer = st.outer := by
  have fits := role_fits st c
  have same := step_eq_role nesting st c
  generalize st.role c = role at fits same
  cases role with
  | closing => exact .inl ⟨fits, same⟩
  | opening key => exact .inr (.inl ⟨key, by rw [State.opens?, if_pos fits.1, fits.2]⟩)
  | lineBreak => exact .inr (.inr fun r => ⟨_, _, same r, rfl⟩)
  | behind => exact .inr (.inr fun r => ⟨_, _, same r, rfl⟩)
  | alternative => exact .inr (.inr fun r => ⟨_, _, same r, rfl⟩)
  | inKey token =>
    right; right
    intro r
    obtain ⟨line, rest, taken⟩ := keyStep_eq_next st token c r
    exact ⟨_, _, (same r).trans taken, rfl⟩
  | inValue key raw =>
    right; right
    intro r
    obtain ⟨doc, line, rest, taken⟩ := valueStep_eq_next st key raw c r
    exact ⟨_, _, (same r).trans taken, rfl⟩

/-! ## Scripts -/

theorem parseText_of_closed {options : ParseOptions} {input : String} {doc : Document}
    {rest : List Char}
    (size : input.utf8ByteSize ≤ options.maxInputBytes)
    (run : readScope ⟨options.maxDepth, 0⟩ .script (dropByteOrderMark input.toList) =
      .closed doc rest) : parseText options input = .ok doc := by
  simp only [parseText, if_neg (Nat.not_lt.2 size), run]

/-- A `{` that is nested too deep fails at the position behind it. -/
theorem parseText_tooDeep {options : ParseOptions} {input : String} {p rest : List Char}
    (size : input.utf8ByteSize ≤ options.maxInputBytes)
    (text : dropByteOrderMark input.toList = p ++ '{' :: rest)
    (run : readScope ⟨options.maxDepth, 0⟩ .script (dropByteOrderMark input.toList) =
      .tooDeep rest) :
    parseText options input =
      .error (.nestedTooDeep options.maxDepth (Position.after (p ++ ['{'])) options.filename) := by
  have place : dropByteOrderMark input.toList = (p ++ ['{']) ++ rest := by
    rw [text, List.append_assoc]
    rfl
  simp only [parseText, if_neg (Nat.not_lt.2 size), run]
  rw [place, take_length_sub]

end BuildScript
