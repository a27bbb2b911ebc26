import BuildScript.Proofs.Grammar.Syntax
import BuildScript.Proofs.Margin
import BuildScript.Proofs.Text

/-!
# Scripts are read as they are meant

Reading the text of a script of the line grammar gives the document that the script stands for.
Reading a line leaves what follows the line, and what the line has stored by then is its meaning.
-/

namespace BuildScript.Grammar

open Text Unicode

/-! ## Declared names -/

/-- The last word stands behind the last blank that a word follows. -/
theorem lastWord_append {before word blanks : List Char} {gap : Char} (blank : isBlank gap = true)
    (nonempty : word ≠ []) (inWord : ∀ c ∈ word, isBlank c = false)
    (h : ∀ c ∈ blanks, isBlank c = true) :
    lastWord (before ++ gap :: (word ++ blanks)) = word := by
  have last : ∀ c ∈ (before ++ gap :: word).getLast?, isBlank c = false := by
    intro c hc
    obtain ⟨d, word', rfl⟩ := List.exists_cons_of_ne_nil nonempty
    rw [List.getLast?_append, List.getLast?_cons_cons] at hc
    have : (d :: word').getLast? = some c := by simpa using hc
    exact inWord c (List.mem_of_getLast? this)
  have reversed : ∀ c ∈ word.reverse, (!isBlank c) = true := fun c hc => by
    simp [inWord c (by simpa using hc)]
  have trimmed : trimEnd (before ++ gap :: (word ++ blanks)) = before ++ gap :: word := by
    rw [← trimEnd_append last h]
    simp
  rw [lastWord, trimmed, List.reverse_append, List.reverse_cons, List.append_assoc,
    List.takeWhile_append_of_pos reversed]
  simp [blank]

theorem endsWords_eq_false_of_isIndent {c : Char} (h : isIndent c = true) :
    endsWords c = false := by
  rcases eq_of_isIndent h with rfl | rfl <;> decide

theorem Word.endsWords_eq_false (word : Word) {c : Char} (h : c ∈ word.chars) :
    endsWords c = false := by
  obtain ⟨blank, others⟩ := word.inWord c h
  have lineBreak : isLineBreak c = false := by
    cases same : isLineBreak c with
    | false => rfl
    | true => rw [isBlank_of_isLineBreak same] at blank; cases blank
  simp at others
  simp [endsWords, lineBreak, others]

theorem endsWords_eq_false_of_mem_wordsText {words : List (Word × Gap)} {c : Char}
    (h : c ∈ wordsText words) : endsWords c = false := by
  induction words with
  | nil => cases h
  | cons entry words ih =>
    obtain ⟨word, gap⟩ := entry
    rcases List.mem_append.1 h with inWord | inGap
    · exact word.endsWords_eq_false inWord
    · rcases List.mem_append.1 inGap with inGap | inWords
      · exact endsWords_eq_false_of_isIndent (gap.blanks c inGap)
      · exact ih inWords

/-- Before the name of a declaration stands a gap, behind the keyword or behind another word. -/
theorem exists_gap_before_name (gap : Gap) (words : List (Word × Gap)) :
    ∃ before last, gap.chars ++ wordsText words = before ++ [last] ∧ isBlank last = true := by
  induction words generalizing gap with
  | nil =>
    have last := gap.blanks (gap.chars.getLast gap.nonempty) (List.getLast_mem gap.nonempty)
    exact ⟨gap.chars.dropLast, gap.chars.getLast gap.nonempty,
      by simp [wordsText, List.dropLast_concat_getLast gap.nonempty], isBlank_of_isIndent last⟩
  | cons entry words ih =>
    obtain ⟨word, inner⟩ := entry
    obtain ⟨before, last, same, blank⟩ := ih inner
    exact ⟨gap.chars ++ (word.chars ++ before), last,
      by simp [wordsText, same, List.append_assoc], blank⟩

theorem endsWords_eq_false_of_mem_signature {gap : Gap} {words : List (Word × Gap)} {name : Word}
    {blanks : Indent} {c : Char}
    (h : c ∈ gap.chars ++ (wordsText words ++ (name.chars ++ blanks.1))) : endsWords c = false := by
  simp only [List.mem_append] at h
  rcases h with inGap | inWords | inName | inBlanks
  · exact endsWords_eq_false_of_isIndent (gap.blanks c inGap)
  · exact endsWords_eq_false_of_mem_wordsText inWords
  · exact name.endsWords_eq_false inName
  · exact endsWords_eq_false_of_isIndent (blanks.2 c inBlanks)

theorem definition_variable (gap : Gap) (words : List (Word × Gap)) (name : Word)
    (blanks : Indent) (rest : List Char) :
    definition (gap.chars ++ (wordsText words ++ (name.chars ++ (blanks.1 ++ '=' :: rest)))) =
      (some name.chars, rest) := by
  obtain ⟨before, last, same, blank⟩ := exists_gap_before_name gap words
  have signature : gap.chars ++ (wordsText words ++ (name.chars ++ (blanks.1 ++ '=' :: rest))) =
      (before ++ last :: (name.chars ++ blanks.1)) ++ '=' :: rest := by
    rw [← List.append_assoc, same]
    simp
  have inWords : ∀ c ∈ before ++ last :: (name.chars ++ blanks.1), (!endsWords c) = true := by
    intro c hc
    have parts : before ++ last :: (name.chars ++ blanks.1) =
        gap.chars ++ (wordsText words ++ (name.chars ++ blanks.1)) := by
      rw [← List.append_assoc gap.chars, same]
      simp
    rw [parts] at hc
    rw [endsWords_eq_false_of_mem_signature hc, Bool.not_false]
  have equals : endsWords '=' = true := by decide
  rw [signature, definition, List.takeWhile_append_of_pos inWords,
    List.dropWhile_append_of_pos inWords]
  simp only [List.takeWhile_cons, List.dropWhile_cons, equals, Bool.not_true, Bool.false_eq_true,
    if_false, List.append_nil]
  rw [lastWord_append blank name.nonempty (fun c hc => (name.inWord c hc).1)
    (fun c hc => isBlank_of_isIndent (blanks.2 c hc))]

/-! ## Parts of a line -/

/-- The text behind a line: nothing, a line break or, unless a comment would take it, a `}`. -/
def EndOfLine (commented : Bool) (rest : List Char) : Prop :=
  ∀ c ∈ rest.head?, isLineBreak c = true ∨ commented = false ∧ c = '}'

/-- The text behind a key: nothing or a character that ends a word. -/
def EndOfKey (rest : List Char) : Prop := ∀ c ∈ rest.head?, endsWord c = true

theorem EndOfLine.endOfKey {rest : List Char} (h : EndOfLine false rest) : EndOfKey rest := by
  intro c hc
  rcases h c hc with lineBreak | ⟨_, rfl⟩
  · simp [endsWord, lineBreak]
  · decide

theorem margin_of_endOfLine {rest : List Char} (h : EndOfLine false rest) : margin rest = rest := by
  cases rest with
  | nil => rfl
  | cons c r =>
    rcases h c rfl with lineBreak | ⟨_, rfl⟩
    · exact margin_lineBreak lineBreak r
    · exact margin_cons_of_not (by decide) (by decide) r

/-- A `//` comment takes the rest of its line. -/
theorem margin_commentText (indent : Indent) (text : CommentText) {rest : List Char}
    (h : EndOfLine true rest) : margin (indent.1 ++ '/' :: '/' :: (text.1 ++ rest)) = rest := by
  rw [margin_append_of_isIndent indent.2]
  refine margin_lineComment (fun c hc => by simpa using text.2 c hc) fun c hc => ?_
  rcases h c hc with lineBreak | ⟨impossible, _⟩
  · exact lineBreak
  · cases impossible

theorem margin_commentBody (indent : Indent) (body : CommentBody) (rest : List Char) :
    margin (indent.1 ++ '/' :: '*' :: (body.chars ++ '*' :: '/' :: rest)) = margin rest := by
  rw [margin_append_of_isIndent indent.2, margin_blockComment body.unclosed]

theorem EndOfKey.noComment {rest : List Char} (h : EndOfKey rest) :
    ∀ c ∈ rest.head?, c ≠ '/' ∧ c ≠ '*' := by
  intro c hc
  have ends := h c hc
  constructor <;> rintro rfl <;> cases ends

/-- A word that begins no comment is where the margin ends. -/
theorem margin_word {word rest : List Char} (nonempty : word ≠ [])
    (inWord : ∀ c ∈ word, endsWord c = false) (line : ¬ ['/', '/'] <+: word)
    (block : ¬ ['/', '*'] <+: word) (h : ∀ c ∈ rest.head?, c ≠ '/' ∧ c ≠ '*') :
    margin (word ++ rest) = word ++ rest := by
  refine margin_append_eq_self nonempty (fun c hc => ?_) line block h
  have inside := inWord c (List.mem_of_head? hc)
  cases indent : isIndent c with
  | false => rfl
  | true => rw [(endsWord_eq_false_iff.1 inside).1.symm, isDelimiter_of_isIndent indent]

theorem margin_key (key : Key) {rest : List Char} (h : EndOfKey rest) :
    margin (key.chars ++ rest) = key.chars ++ rest :=
  margin_word key.nonempty (fun c hc => (key.inWord c hc).1) key.notLineComment
    key.notBlockComment h.noComment

variable {nesting : Nesting} {kind : ScopeKind} {doc : Document} {outer : List Frame}

theorem read_key (indent : Indent) (key : Key) {rest : List Char} (h : EndOfKey rest) :
    read nesting ⟨kind, doc, .key "", outer⟩ (margin (indent.1 ++ (key.chars ++ rest))) =
      read nesting ⟨kind, doc, .key key.name, outer⟩ rest := by
  rw [margin_append_of_isIndent indent.2, margin_key key h, read_word "" key.inWord]
  simp [Key.name]

theorem Key.name_ne_empty (key : Key) : key.name ≠ "" := ofList_ne_empty key.nonempty

theorem Key.name_ne_keyword (key : Key) :
    key.name ≠ "if" ∧ key.name ≠ "else" ∧ key.name ≠ "def" := by
  simpa [keywords, Key.name] using key.notKeyword

/-- A delimiter ends a word that is no keyword. -/
theorem step_separator {word : String} (nonempty : word ≠ "") (plain : word ∉ keywords) {c : Char}
    (h : isDelimiter c = true) (r : List Char) :
    step nesting ⟨kind, doc, .key word, outer⟩ c r = .next ⟨kind, doc, .value word "", outer⟩ r := by
  have paren : c ≠ '(' := by rintro rfl; simp [isDelimiter, isIndent] at h
  obtain ⟨notIf, notElse, notDef⟩ : word ≠ "if" ∧ word ≠ "else" ∧ word ≠ "def" := by
    simpa [keywords] using plain
  rw [step_key word (endsValue_of_isDelimiter h)]
  simp [keyStep, paren, h, nonempty, notIf, notElse, notDef]

theorem read_word_separator {word : String} (nonempty : word ≠ "") (plain : word ∉ keywords)
    (separator : Separator) (rest : List Char) :
    read nesting ⟨kind, doc, .key word, outer⟩ (separator.chars ++ rest) =
      read nesting ⟨kind, doc, .value word "", outer⟩ rest := by
  obtain ⟨c, others, same⟩ := List.exists_cons_of_ne_nil separator.nonempty
  have delimiters := separator.delimiters
  rw [same] at delimiters ⊢
  rw [List.cons_append, read_of_next (step_separator nonempty plain (delimiters c (by simp)) _)]
  exact read_separators word (fun d hd => delimiters d (by simp [hd])) rest

theorem read_key_separator (key : Key) (separator : Separator) (rest : List Char) :
    read nesting ⟨kind, doc, .key key.name, outer⟩ (separator.chars ++ rest) =
      read nesting ⟨kind, doc, .value key.name "", outer⟩ rest :=
  read_word_separator key.name_ne_empty key.notKeyword separator rest

theorem Separator.endOfKey (separator : Separator) (rest : List Char) :
    EndOfKey (separator.chars ++ rest) := by
  obtain ⟨c, others, same⟩ := List.exists_cons_of_ne_nil separator.nonempty
  intro d hd
  have : c = d := by simpa [same] using hd
  subst this
  simp [endsWord, separator.delimiters c (by simp [same])]

/-- How far a line is read behind its key and the separators that follow it. -/
def Key.line (key : Key) (separators : Separators) : Line :=
  if separators.1 = [] then .key key.name else .value key.name ""

theorem Key.blockKey?_line (key : Key) (separators : Separators) :
    (key.line separators).blockKey? = some key.name := by
  unfold Key.line
  split
  · simp [Line.blockKey?, key.name_ne_keyword]
  · rfl

/-- A key without a value says nothing. -/
theorem Key.store_line (key : Key) (separators : Separators) :
    (key.line separators).store .script doc = doc := by
  unfold Key.line
  split <;> simp [Line.store, ScopeKind.storeSetting, ScopeKind.keepsCalls, allBlank]

theorem read_key_separators (key : Key) (separators : Separators) (rest : List Char) :
    read nesting ⟨kind, doc, .key key.name, outer⟩ (separators.1 ++ rest) =
      read nesting ⟨kind, doc, key.line separators, outer⟩ rest := by
  unfold Key.line
  split
  · next empty => rw [empty]; rfl
  · next nonempty => exact read_key_separator key ⟨_, nonempty, separators.2⟩ rest

theorem endOfKey_separators (separators : Separators) {rest : List Char} (h : EndOfKey rest) :
    EndOfKey (separators.1 ++ rest) := by
  by_cases empty : separators.1 = []
  · rw [empty]
    exact h
  · exact (Separator.mk separators.1 empty separators.2).endOfKey rest

/-- What follows a `]` or a `}` on its line does not count. -/
theorem read_tail (tail : Tail) (rest : List Char) :
    read nesting ⟨kind, doc, .done, outer⟩ (tail.1 ++ rest) =
      read nesting ⟨kind, doc, .done, outer⟩ rest := by
  apply read_done
  intro c hc
  have inTail := endsValue_eq_false_iff.1 (by simpa using tail.2 c hc)
  exact ⟨inTail.1, inTail.2.2⟩

theorem ValueText.exists_cons (value : ValueText) : ∃ c r, value.chars = c :: r := by
  apply List.exists_cons_of_ne_nil
  intro empty
  have := value.notBlank
  rw [empty] at this
  cases this

theorem read_valueText (name : String) (value : ValueText) (rest : List Char) :
    read nesting ⟨kind, doc, .value name "", outer⟩ (value.chars ++ rest) =
      read nesting ⟨kind, doc, .value name (String.ofList value.chars), outer⟩ rest := by
  obtain ⟨c, r, same⟩ := value.exists_cons
  have inValue := value.inValue
  obtain ⟨delimiter, bracket⟩ := value.start c (by simp [same])
  rw [same] at inValue ⊢
  have first : step nesting ⟨kind, doc, .value name "", outer⟩ c (r ++ rest) =
      .next ⟨kind, doc, .value name ("".push c), outer⟩ (r ++ rest) := by
    rw [step_value name "" (inValue c (by simp))]
    simp [valueStep, delimiter, bracket]
  rw [List.cons_append, read_of_next first,
    read_value name (push_ne_empty "" c) (fun d hd => inValue d (by simp [hd])),
    push_append_ofList]
  simp

/-- A line with a value stores it under its key. -/
theorem store_valueText {name : String} (named : name ≠ "") (value : ValueText) :
    Line.store kind doc (.value name (String.ofList value.chars)) =
      doc.add name (classify value.chars) := by
  simp [Line.store, ScopeKind.storeSetting, named, value.notBlank]

theorem listItems_append {items : List Char} (h : ∀ c ∈ items, (c != ']') = true)
    (rest : List Char) : listItems (items ++ ']' :: rest) = (itemValues items, rest) := by
  simp only [listItems]
  rw [List.takeWhile_append_of_pos h, List.dropWhile_append_of_pos h]
  simp [itemValues]

/-! ## Lines and scripts -/

/-- Reading a line from its start goes on behind it, in a state that stores the given document. -/
def ReadsTo (nesting : Nesting) (outer : List Frame) (doc : Document) (s : List Char)
    (stored : Document) (rest : List Char) : Prop :=
  ∃ doc' line, Line.store .script doc' line = stored ∧
    read nesting ⟨.script, doc, .key "", outer⟩ (margin s) =
      read nesting ⟨.script, doc', line, outer⟩ rest

theorem ReadsTo.readScope_eq {s : List Char} {stored : Document}
    (h : ReadsTo nesting [] [] s stored []) :
    readScope nesting .script s = .closed stored [] := by
  obtain ⟨doc, line, stored, run⟩ := h
  rw [readScope, State.start, run, read_nil]
  exact congrArg (Reading.closed · []) stored

theorem readsTo_of_margin {s rest : List Char} (h : margin s = rest) :
    ReadsTo nesting outer doc s doc rest :=
  ⟨doc, .key "", by simp [Line.store, ScopeKind.storeSetting], by rw [h]⟩

theorem readsTo_setting (indent : Indent) (key : Key) (separator : Separator) (value : ValueText)
    (rest : List Char) :
    ReadsTo nesting outer doc
      (indent.1 ++ (key.chars ++ (separator.chars ++ (value.chars ++ rest))))
      (doc.add key.name (classify value.chars)) rest := by
  refine ⟨doc, .value key.name (String.ofList value.chars),
    store_valueText key.name_ne_empty value, ?_⟩
  rw [read_key indent key (separator.endOfKey _), read_key_separator key separator,
    read_valueText]

theorem readsTo_declaration (indent : Indent) (gap : Gap) (words : List (Word × Gap))
    (name : Word) (blanks : Indent) (separators : Separators) (value : ValueText)
    (rest : List Char) :
    ReadsTo nesting outer doc
      (indent.1 ++ ("def".toList ++ (gap.chars ++ (wordsText words ++ (name.chars ++ (blanks.1 ++
        '=' :: (separators.1 ++ (value.chars ++ rest))))))))
      (doc.add name.name (classify value.chars)) rest := by
  obtain ⟨c, others, same⟩ := List.exists_cons_of_ne_nil gap.nonempty
  have delimiter := isDelimiter_of_isIndent (gap.blanks c (by simp [same]))
  have named := definition_variable gap words name blanks (separators.1 ++ (value.chars ++ rest))
  rw [same, List.cons_append] at named
  refine ⟨doc, .value name.name (String.ofList value.chars),
    store_valueText (ofList_ne_empty name.nonempty) value, ?_⟩
  have keyword : ∀ d ∈ "def".toList, endsWord d = false ∧ d ≠ '(' := by decide
  have taken : step nesting ⟨.script, doc, .key "def", outer⟩ c (others ++ (wordsText words ++
        (name.chars ++ (blanks.1 ++ '=' :: (separators.1 ++ (value.chars ++ rest)))))) =
      .next ⟨.script, doc, .value name.name "", outer⟩
        (separators.1 ++ (value.chars ++ rest)) := by
    have paren : c ≠ '(' := by rintro rfl; simp [isDelimiter, isIndent] at delimiter
    rw [step_key "def" (endsValue_of_isDelimiter delimiter)]
    simp [keyStep, paren, delimiter, named, Word.name]
  have start : ∀ tail, margin ("def".toList ++ tail) = "def".toList ++ tail :=
    fun tail => margin_cons_of_not (by decide) (by decide) _
  rw [margin_append_of_isIndent indent.2, start, read_word "" keyword, same, List.cons_append]
  have token : "" ++ String.ofList "def".toList = "def" := by decide
  rw [token, read_of_next taken, read_separators name.name separators.2, read_valueText]

theorem readsTo_list (indent : Indent) (key : Key) (separator : Separator) (items : ListText)
    (tail : Tail) (rest : List Char) :
    ReadsTo nesting outer doc (indent.1 ++ (key.chars ++ (separator.chars ++ '[' ::
        (items.1 ++ ']' :: (tail.1 ++ rest)))))
      (doc.add key.name (.sequence (itemValues items.1))) rest := by
  refine ⟨doc.add key.name (.sequence (itemValues items.1)), .done, rfl, ?_⟩
  have taken : step nesting ⟨.script, doc, .value key.name "", outer⟩ '['
        (items.1 ++ ']' :: (tail.1 ++ rest)) =
      .next ⟨.script, doc.add key.name (.sequence (itemValues items.1)), .done, outer⟩
        (tail.1 ++ rest) := by
    rw [step_value key.name "" (by decide)]
    simp [valueStep, isDelimiter, isIndent, listItems_append items.2, key.name_ne_empty]
  rw [read_key indent key (separator.endOfKey _), read_key_separator key separator,
    read_of_next taken, read_tail tail]

theorem readsTo_bare (indent : Indent) (key : Key) (separators : Separators) {rest : List Char}
    (h : EndOfLine false rest) :
    ReadsTo nesting outer doc (indent.1 ++ (key.chars ++ (separators.1 ++ rest))) doc rest := by
  refine ⟨doc, key.line separators, key.store_line separators, ?_⟩
  rw [read_key indent key (endOfKey_separators separators h.endOfKey), read_key_separators]

/-- A block is read as its body is, inside one more block. -/
theorem readsTo_block (indent : Indent) (key : BlockKey) (separators : Separators)
    {body rest : List Char} (tail : Tail) {inner : Document}
    (room : nesting.depth + outer.length < nesting.limit)
    (h : ReadsTo nesting (⟨key.name, .script, doc⟩ :: outer) []
      (body ++ '}' :: (tail.1 ++ rest)) inner ('}' :: (tail.1 ++ rest))) :
    ReadsTo nesting outer doc (indent.1 ++ (key.chars ++ (separators.1 ++ '{' ::
        (body ++ '}' :: (tail.1 ++ rest)))))
      (doc.joinBlock key.name (.document inner)) rest := by
  obtain ⟨doc', line, stored, run⟩ := h
  refine ⟨doc.joinBlock key.name (.document inner), .done, rfl, ?_⟩
  have brace : EndOfKey ('{' :: (body ++ '}' :: (tail.1 ++ rest))) := by
    intro c hc
    cases hc
    decide
  have script : ScopeKind.script.ofBlock key.name = .script := by
    simp [ScopeKind.ofBlock, Key.name, key.notRepositories]
  rw [read_key indent key.toKey (endOfKey_separators separators brace), read_key_separators,
    read_opening (key.blockKey?_line separators) key.notDependencies room, script, run,
    read_closing, stored]
  simp only [ScopeKind.value, ScopeKind.storeBlock, key.name_ne_empty, if_false]
  exact read_tail tail rest

/-- A line break stores what the line has given, and the next line begins behind it. -/
theorem read_lineBreak_text (lineBreak : LineBreak) (line : Line) (rest : List Char) :
    read nesting ⟨kind, doc, line, outer⟩ (lineBreak.text ++ rest) =
      read nesting ⟨kind, line.store kind doc, .key "", outer⟩ (margin rest) := by
  cases lineBreak with
  | lineFeed => exact read_lineBreak (by decide) line rest
  | carriageReturn => exact read_lineBreak (by decide) line rest
  | both =>
    rw [LineBreak.text, List.cons_append, List.singleton_append, read_lineBreak (by decide),
      margin_lineBreak (by decide), read_lineBreak (by decide)]
    simp [Line.store, ScopeKind.storeSetting]

theorem ReadsTo.lineBreak {s stored rest more final} (lineBreak : LineBreak)
    (h : ReadsTo nesting outer doc s stored (lineBreak.text ++ more))
    (next : ReadsTo nesting outer stored more final rest) :
    ReadsTo nesting outer doc s final rest := by
  obtain ⟨doc', line, same, run⟩ := h
  obtain ⟨doc'', line', done, run'⟩ := next
  refine ⟨doc'', line', done, ?_⟩
  rw [run, ← run', read_lineBreak_text, same]

theorem EndOfLine.lineBreak (commented : Bool) (lineBreak : LineBreak) (rest : List Char) :
    EndOfLine commented (lineBreak.text ++ rest) := by
  intro c hc
  cases lineBreak <;> cases hc <;> exact .inl (by decide)

mutual

theorem readsTo_line {commented : Bool} (line : ScriptLine commented) (doc : Document)
    (outer : List Frame) (rest : List Char) (h : EndOfLine commented rest)
    (room : nesting.depth + outer.length + line.depth ≤ nesting.limit) :
    ReadsTo nesting outer doc (line.text ++ rest) (line.meaning doc) rest := by
  match line with
  | .blank indent =>
    apply readsTo_of_margin
    rw [ScriptLine.text, margin_append_of_isIndent indent.2, margin_of_endOfLine h]
  | .comment indent text =>
    apply readsTo_of_margin
    rw [ScriptLine.text, List.append_assoc]
    exact margin_commentText indent text h
  | .afterComment indent body line =>
    obtain ⟨doc', last, stored, run⟩ := readsTo_line line doc outer rest h room
    refine ⟨doc', last, stored, ?_⟩
    simp only [ScriptLine.text, List.append_assoc, List.cons_append]
    rw [margin_commentBody, run]
  | .setting indent key separator value =>
    simpa only [ScriptLine.text, ScriptLine.meaning, List.append_assoc] using
      readsTo_setting indent key separator value rest
  | .declaration indent gap words name blanks separators value =>
    simpa only [ScriptLine.text, ScriptLine.meaning, List.append_assoc, List.cons_append] using
      readsTo_declaration indent gap words name blanks separators value rest
  | .list indent key separator items tail =>
    simpa only [ScriptLine.text, ScriptLine.meaning, List.append_assoc, List.cons_append] using
      readsTo_list indent key separator items tail rest
  | .bare indent key separators =>
    simpa only [ScriptLine.text, ScriptLine.meaning, List.append_assoc] using
      readsTo_bare indent key separators h
  | .block indent key separators body tail =>
    rw [ScriptLine.depth] at room
    have brace : EndOfLine false ('}' :: (tail.1 ++ rest)) :=
      fun c hc => .inr ⟨rfl, by cases hc; rfl⟩
    have inner := readsTo_script body [] (⟨key.name, .script, doc⟩ :: outer) _ brace
      (by rw [List.length_cons]; omega)
    simpa only [ScriptLine.text, ScriptLine.meaning, List.append_assoc, List.cons_append] using
      readsTo_block indent key separators tail (by omega) inner

theorem readsTo_script {commented : Bool} (script : Script commented) (doc : Document)
    (outer : List Frame) (rest : List Char) (h : EndOfLine commented rest)
    (room : nesting.depth + outer.length + script.depth ≤ nesting.limit) :
    ReadsTo nesting outer doc (script.text ++ rest) (script.meaning doc) rest := by
  match script with
  | .last line => exact readsTo_line line doc outer rest h room
  | .cons line lineBreak more =>
    rw [Script.depth] at room
    have first := readsTo_line line doc outer _
      (EndOfLine.lineBreak _ lineBreak (more.text ++ rest)) (by omega)
    have others := readsTo_script more (line.meaning doc) outer rest h (by omega)
    simpa only [Script.text, Script.meaning, List.append_assoc] using first.lineBreak lineBreak others

end

/-- A script is read as the document that it stands for, whatever its layout. -/
theorem readScope_text {commented : Bool} (script : Script commented) {limit : Nat}
    (room : script.depth ≤ limit) :
    readScope ⟨limit, 0⟩ .script script.text = .closed (script.meaning []) [] := by
  have whole : ReadsTo ⟨limit, 0⟩ [] [] (script.text ++ []) (script.meaning []) [] :=
    readsTo_script script [] [] [] (fun c hc => by cases hc) (by simpa using room)
  rw [List.append_nil] at whole
  exact whole.readScope_eq

/-- Every script of the line grammar is read as the document that it stands for: by the reader of
scopes, and as the text of an input whose size is within the limit. -/
theorem parseText_eq_meaning {commented : Bool} (script : Script commented)
    (options : ParseOptions) (room : script.depth ≤ options.maxDepth) :
    readScope ⟨options.maxDepth, 0⟩ .script script.text = .closed (script.meaning []) [] ∧
      ∀ input : String, dropByteOrderMark input.toList = script.text →
        input.utf8ByteSize ≤ options.maxInputBytes →
        parseText options input = .ok (script.meaning []) := by
  refine ⟨readScope_text script room, ?_⟩
  intro input text size
  exact parseText_of_closed size (text ▸ readScope_text script room)

/-- A block behind a block comment, with a `//` comment behind its `{`, and a declaration. -/
def sample : Script false :=
  .cons (.afterComment ⟨[], by decide⟩ ⟨" \x7d ".toList, by decide⟩
    (.block ⟨[' '], by decide⟩
      ⟨⟨"a".toList, by decide, by decide, by decide, by decide, by decide⟩, by decide, by decide⟩
      ⟨[' '], by decide⟩
      (.cons (.comment ⟨[], by decide⟩ ⟨" \x7b".toList, by decide⟩) .both
        (.last (.setting ⟨[' '], by decide⟩
          ⟨"b".toList, by decide, by decide, by decide, by decide, by decide⟩
          ⟨"= ".toList, by decide, by decide⟩
          ⟨"'x' ".toList, by decide, by decide, by simp [isDelimiter, isIndent]⟩)))
      ⟨"! ".toList, by decide⟩))
    .lineFeed
    (.last (.declaration ⟨[], by decide⟩ ⟨" ".toList, by decide, by decide⟩
      [(⟨"T".toList, by decide, by decide⟩, ⟨"\t".toList, by decide, by decide⟩)]
      ⟨"v".toList, by decide, by decide⟩ ⟨[], by decide⟩ ⟨" ".toList, by decide⟩
      ⟨"true".toList, by decide, by decide, by simp [isDelimiter, isIndent]⟩))

theorem parseText_sample :
    sample.depth ≤ 1 ∧
      parseText ⟨1, 64, none⟩ "/* \x7d */ a \x7b// \x7b\r\n b= 'x' \x7d! \ndef T\tv= true" =
        .ok [("a", .document [("b", .text "x")]), ("v", .boolean true)] :=
  ⟨by decide, (parseText_eq_meaning sample ⟨1, 64, none⟩ (by decide)).2 _ (by decide) (by decide)⟩

end BuildScript.Grammar
