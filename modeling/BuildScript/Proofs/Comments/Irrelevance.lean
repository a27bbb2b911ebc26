import BuildScript.Proofs.Comments.Behind

/-!
# What a comment says does not count

Two scripts that differ in the text of one comment alone give the same document, and a comment that
is not closed ends a script like the end of its text.  That holds wherever the reader opens the
comment, except in a call in parentheses that becomes the key of a block: its text is the key.
-/

namespace BuildScript

open Text

/-! ## Scopes -/

/-- The comments that the reader opens in a script, each as the text from its opening on. -/
def scriptComments (limit : Nat) (s : List Char) : List (List Char) :=
  marginComments s ++ readComments ⟨limit, 0⟩ (State.start .script) (margin s)

/-- The texts from within the calls of a script that become keys. -/
def scriptKeyTexts (limit : Nat) (s : List Char) : List (List Char) :=
  keyTexts ⟨limit, 0⟩ (State.start .script) (margin s)

variable {limit : Nat} {a b p m rest : List Char}

/-- A script that ends with a comment goes on behind it with what the margin leaves. -/
theorem readScope_resumes (opened : a ∈ scriptComments limit (p ++ a)) :
    ∃ resume : List Char → Option Reading, (∀ m last, resume m = some last → last.rest <:+ m) ∧
      ∀ ⦃b : List Char⦄, (b = [] ∨ BeginsComment b) →
        (if b ∈ scriptKeyTexts limit (p ++ b) then none
          else some (readScope ⟨limit, 0⟩ .script (p ++ b))) = resume (margin b) := by
  have upto : ∀ b, Upto a b (p ++ a) (p ++ b) := fun b => Upto.here.prepend p
  rcases List.mem_append.1 opened with first | later
  · refine ⟨fun m => some (read ⟨limit, 0⟩ (State.start .script) m), ?_, ?_⟩
    · intro m last found
      cases found
      exact rest_suffix_of_read ..
    · intro b other
      have left := margin_eq_of_mem_marginComments first other (upto b)
      have run := readOutsideKeys?_behind ⟨limit, 0⟩ (State.start .script) other
        (List.suffix_refl (margin b))
      rw [← left] at run ⊢
      exact run
  · obtain ⟨comment, inside⟩ := begins_readComments later
    obtain ⟨resume, ends, same⟩ := read_resumes later
    refine ⟨resume, ends, ?_⟩
    intro b other
    exact same other (keeps_margin (comment.seam other) (upto b) inside.length_le)

/-- Comments that leave the same text behind them are read alike, outside of keys. -/
theorem readScope_eq_of_margin_eq (opened : a ∈ scriptComments limit (p ++ a))
    (other : b = [] ∨ BeginsComment b) (outside : b ∉ scriptKeyTexts limit (p ++ b)) :
    (readScope ⟨limit, 0⟩ .script (p ++ b)).rest <:+ margin b ∧
      ∀ {b' : List Char}, (b' = [] ∨ BeginsComment b') → margin b' = margin b →
        readScope ⟨limit, 0⟩ .script (p ++ b') = readScope ⟨limit, 0⟩ .script (p ++ b) := by
  obtain ⟨resume, ends, same⟩ := readScope_resumes opened
  have known := same other
  rw [if_neg outside] at known
  refine ⟨ends _ _ known.symm, ?_⟩
  intro b' other' left
  have alike := same other'
  rw [left, ← known] at alike
  split at alike
  · cases alike
  · exact Option.some.inj alike

/-- A brace that is nested too deep is in what the margin leaves, if the comment before that does
not end with a brace. -/
theorem opening_behind (fails : readScope ⟨limit, 0⟩ .script (p ++ m) = .tooDeep rest)
    (behind : rest <:+ m) (noBrace : p.getLast? ≠ some '{') : ∃ q, m = q ++ '{' :: rest := by
  have found : ∃ q, p ++ m = q ++ '{' :: rest := by
    rcases stops_or_ends ⟨limit, 0⟩ (State.start .script) (margin (p ++ m)) with stops | ⟨doc, ends⟩
    · have run : read ⟨limit, 0⟩ (State.start .script) (margin (p ++ m)) = .tooDeep rest := fails
      rw [run] at stops
      obtain ⟨q, text⟩ := stops.eq_append
      obtain ⟨skipped, whole⟩ := margin_suffix (p ++ m)
      refine ⟨skipped ++ q, ?_⟩
      rw [← whole, text, List.append_assoc]
      rfl
    · cases ends.symm.trans fails
  obtain ⟨q, text⟩ := found
  obtain ⟨mid, rfl⟩ := behind
  have whole : (p ++ mid) ++ rest = (q ++ ['{']) ++ rest := by
    simpa [List.append_assoc] using text
  have before : p ++ mid = q ++ ['{'] := List.append_cancel_right whole
  have last : (p ++ mid).getLast? = some '{' := by
    rw [before, List.getLast?_concat]
  rcases List.eq_nil_or_concat mid with rfl | ⟨mid, c, rfl⟩
  · rw [List.append_nil] at last
    exact (noBrace last).elim
  · rw [List.concat_eq_append, ← List.append_assoc, List.getLast?_concat] at last
    cases last
    exact ⟨mid, by simp⟩

/-! ## Scripts -/

/-- The reader of a script opens a comment at the end of the text `p`, if one begins there. -/
def OpensComment (limit : Nat) (p : String) : Prop :=
  ['/', '*'] ∈ scriptComments limit (dropByteOrderMark p.toList ++ ['/', '*'])

/-- The text behind `p` begins within a call that becomes the key of a block. -/
def InBlockKey (limit : Nat) (p behind : String) : Prop :=
  behind.toList ∈ scriptKeyTexts limit (dropByteOrderMark p.toList ++ behind.toList)

/-- The outcomes are the same but for the position of a failure. -/
inductive SameButPosition :
    Except ParseError Document → Except ParseError Document → Prop where
  | ok (doc : Document) : SameButPosition (.ok doc) (.ok doc)
  | nestedTooDeep (limit : Nat) (position position' : Position) (filename : Option String) :
    SameButPosition (.error (.nestedTooDeep limit position filename))
      (.error (.nestedTooDeep limit position' filename))

theorem dropByteOrderMark_append_comment (p : List Char) (other : b = [] ∨ BeginsComment b) :
    dropByteOrderMark (p ++ b) = dropByteOrderMark p ++ b := by
  rcases eq_or_ne p [] with rfl | nonempty
  · rcases other with rfl | comment
    · rfl
    · cases comment <;> rfl
  · exact dropByteOrderMark_append nonempty b

/-- Where a line begins, the position does not depend on the columns of the lines before. -/
theorem Position.after_lineFeed (before before' : List Char)
    (lines : before.count '\n' = before'.count '\n') (line : List Char) :
    Position.after (before ++ '\n' :: line) = Position.after (before' ++ '\n' :: line) := by
  have column : ∀ before : List Char,
      ((before ++ '\n' :: line).reverse.takeWhile (· != '\n')) =
        (line.reverse ++ ['\n']).takeWhile (· != '\n') := by
    intro before
    simp [List.takeWhile_append]
  simp only [Position.after, column, List.count_append, lines]

theorem toList_lineComment (p t q : String) :
    dropByteOrderMark (p ++ "//" ++ t ++ "\n" ++ q).toList =
      dropByteOrderMark p.toList ++ '/' :: '/' :: (t.toList ++ '\n' :: q.toList) := by
  rw [← dropByteOrderMark_append_comment _ (.inr (.line _))]
  simp

theorem toList_blockComment (p t q : String) :
    dropByteOrderMark (p ++ "/*" ++ t ++ "*/" ++ q).toList =
      dropByteOrderMark p.toList ++ '/' :: '*' :: (t.toList ++ '*' :: '/' :: q.toList) := by
  rw [← dropByteOrderMark_append_comment _ (.inr (.block _))]
  simp

section Scripts

variable {options : ParseOptions} {p q : String}

/-- A script with a line comment is read the same way whatever the comment says. -/
theorem readScope_lineComment (opens : OpensComment limit p)
    (outside : ¬ InBlockKey limit p ("//\n" ++ q)) :
    ∃ run : Reading, run.rest <:+ '\n' :: q.toList ∧
      ∀ t : String, (∀ c ∈ t.toList, isLineBreak c = false) →
        readScope ⟨limit, 0⟩ .script (dropByteOrderMark (p ++ "//" ++ t ++ "\n" ++ q).toList) =
          run := by
  have ends : ∀ t : List Char, (∀ c ∈ t, isLineBreak c = false) →
      margin ('/' :: '/' :: (t ++ '\n' :: q.toList)) = '\n' :: q.toList :=
    fun t inLine => margin_lineComment inLine (by simp [isLineBreak])
  have bare := ends [] (by simp)
  rw [List.nil_append] at bare
  have empty : ("//\n" ++ q).toList = '/' :: '/' :: '\n' :: q.toList := by simp
  rw [InBlockKey, empty] at outside
  obtain ⟨left, alike⟩ := readScope_eq_of_margin_eq opens (.inr (.line ('\n' :: q.toList))) outside
  rw [bare] at left alike
  refine ⟨_, left, ?_⟩
  intro t inLine
  rw [toList_lineComment]
  exact alike (.inr (.line _)) (ends t.toList inLine)

/-- A script with a block comment is read the same way whatever the comment says. -/
theorem readScope_blockComment (opens : OpensComment limit p)
    (outside : ¬ InBlockKey limit p ("/**/" ++ q)) :
    ∃ run : Reading, ∀ t : String, ¬ ['*', '/'] <:+: t.toList →
      readScope ⟨limit, 0⟩ .script (dropByteOrderMark (p ++ "/*" ++ t ++ "*/" ++ q).toList) =
        run := by
  have ends : ∀ t : List Char, ¬ ['*', '/'] <:+: t →
      margin ('/' :: '*' :: (t ++ '*' :: '/' :: q.toList)) = margin q.toList :=
    fun t unclosed => margin_blockComment unclosed q.toList
  have bare := ends [] (by simp)
  rw [List.nil_append] at bare
  have empty : ("/**/" ++ q).toList = '/' :: '*' :: '*' :: '/' :: q.toList := by simp
  rw [InBlockKey, empty] at outside
  obtain ⟨-, alike⟩ := readScope_eq_of_margin_eq opens
    (.inr (.block ('*' :: '/' :: q.toList))) outside
  rw [bare] at alike
  refine ⟨readScope ⟨limit, 0⟩ .script
    (dropByteOrderMark p.toList ++ '/' :: '*' :: '*' :: '/' :: q.toList), ?_⟩
  intro t unclosed
  rw [toList_blockComment]
  exact alike (.inr (.block _)) (ends t.toList unclosed)

/-- What a script with a line comment comes to is settled by the text around the comment. -/
theorem parseText_lineComment (opens : OpensComment options.maxDepth p)
    (outside : ¬ InBlockKey options.maxDepth p ("//\n" ++ q)) :
    ∃ outcome, ∀ t : String, (∀ c ∈ t.toList, isLineBreak c = false) →
      (p ++ "//" ++ t ++ "\n" ++ q).utf8ByteSize ≤ options.maxInputBytes →
        parseText options (p ++ "//" ++ t ++ "\n" ++ q) = outcome := by
  obtain ⟨run, left, same⟩ := readScope_lineComment opens outside
  cases run with
  | closed doc rest =>
    refine ⟨.ok doc, ?_⟩
    intro t inLine size
    exact parseText_of_closed size (same t inLine)
  | tooDeep rest =>
    have bare := same "" (by simp)
    rw [toList_lineComment] at bare
    have fails : readScope ⟨options.maxDepth, 0⟩ .script
        ((dropByteOrderMark p.toList ++ ['/', '/']) ++ '\n' :: q.toList) = .tooDeep rest := by
      rw [← bare, List.append_assoc]
      rfl
    obtain ⟨mid, text⟩ := opening_behind fails left (by simp)
    cases mid with
    | nil => cases text
    | cons c mid =>
      obtain ⟨rfl, -⟩ := List.cons.inj text
      refine ⟨.error (.nestedTooDeep options.maxDepth
        (Position.after (dropByteOrderMark p.toList ++ '\n' :: (mid ++ ['{'])))
        options.filename), ?_⟩
      intro t inLine size
      have oneLine : '\n' ∉ t.toList := by
        intro member
        cases inLine '\n' member
      have split : dropByteOrderMark (p ++ "//" ++ t ++ "\n" ++ q).toList =
          ((dropByteOrderMark p.toList ++ '/' :: '/' :: t.toList) ++ '\n' :: mid) ++
            '{' :: rest := by
        rw [toList_lineComment, text]
        simp
      have place := Position.after_lineFeed (dropByteOrderMark p.toList ++ '/' :: '/' :: t.toList)
        (dropByteOrderMark p.toList) (by simp [List.count_eq_zero_of_not_mem oneLine])
        (mid ++ ['{'])
      rw [parseText_tooDeep size split (same t inLine), List.append_assoc, ← place]
      rfl

/-- What a script with a block comment comes to is settled by the text around the comment, but for
the position of a failure. -/
theorem parseText_blockComment (opens : OpensComment options.maxDepth p)
    (outside : ¬ InBlockKey options.maxDepth p ("/**/" ++ q)) {t t' : String}
    (unclosed : ¬ ['*', '/'] <:+: t.toList) (unclosed' : ¬ ['*', '/'] <:+: t'.toList)
    (size : (p ++ "/*" ++ t ++ "*/" ++ q).utf8ByteSize ≤ options.maxInputBytes)
    (size' : (p ++ "/*" ++ t' ++ "*/" ++ q).utf8ByteSize ≤ options.maxInputBytes) :
    SameButPosition (parseText options (p ++ "/*" ++ t ++ "*/" ++ q))
      (parseText options (p ++ "/*" ++ t' ++ "*/" ++ q)) := by
  obtain ⟨run, same⟩ := readScope_blockComment opens outside
  cases run with
  | closed doc rest =>
    rw [parseText_of_closed size (same t unclosed), parseText_of_closed size' (same t' unclosed')]
    exact .ok doc
  | tooDeep rest =>
    simp only [parseText, if_neg (Nat.not_lt.2 size), if_neg (Nat.not_lt.2 size'),
      same t unclosed, same t' unclosed']
    exact .nestedTooDeep ..

/-- A comment that is not closed ends a script like the end of its text. -/
theorem parseText_unclosedComment (opens : OpensComment options.maxDepth p) {t : String}
    (unclosed : ¬ ['*', '/'] <:+: t.toList)
    (size : (p ++ "/*" ++ t).utf8ByteSize ≤ options.maxInputBytes) :
    parseText options (p ++ "/*" ++ t) = parseText options p := by
  have size' : p.utf8ByteSize ≤ options.maxInputBytes := by
    refine Nat.le_trans ?_ size
    simp only [String.utf8ByteSize_append]
    omega
  have whole : dropByteOrderMark (p ++ "/*" ++ t).toList =
      dropByteOrderMark p.toList ++ '/' :: '*' :: t.toList := by
    rw [← dropByteOrderMark_append_comment _ (.inr (.block _))]
    simp
  have outside : [] ∉ scriptKeyTexts options.maxDepth (dropByteOrderMark p.toList ++ []) :=
    fun inside => (suffix_of_mem_keyTexts inside).2 rfl
  obtain ⟨left, alike⟩ := readScope_eq_of_margin_eq opens (.inl rfl) outside
  have none : ∀ t : List Char, ¬ ['*', '/'] <:+: t → margin ('/' :: '*' :: t) = margin [] :=
    fun t unclosed => margin_unclosedComment unclosed
  have run := alike (.inr (.block t.toList)) (none t.toList unclosed)
  rw [List.append_nil] at left run
  rw [← whole] at run
  cases result : readScope ⟨options.maxDepth, 0⟩ .script (dropByteOrderMark p.toList) with
  | closed doc rest =>
    rw [parseText_of_closed size (run.trans result), parseText_of_closed size' result]
  | tooDeep rest =>
    -- The brace would be the last character before the end, where the comment stands.
    have fails := alike (.inr (.block [])) (none [] (by simp))
    rw [List.append_nil, result, ← List.append_nil (_ ++ _)] at fails
    rw [result] at left
    obtain ⟨mid, text⟩ := opening_behind fails left (by simp)
    cases mid <;> cases text

end Scripts

/-- What a comment says does not count, and a comment that is not closed is an end of the script.
Behind every text at whose end the reader opens a comment, in a scope, in a block of dependencies or
in what it skips, and outside of calls that become keys of blocks:

* scripts that differ in the text of a line comment give the same document or the same error;
* scripts that differ in the text of a block comment give the same document, or both are nested too
  deep;
* a script that ends inside a block comment gives what it gives without that comment. -/
theorem parseText_ignores_comment (options : ParseOptions) (p : String)
    (opens : OpensComment options.maxDepth p) :
    (∀ q : String, ¬ InBlockKey options.maxDepth p ("//\n" ++ q) → ∀ t t' : String,
        (∀ c ∈ t.toList, isLineBreak c = false) → (∀ c ∈ t'.toList, isLineBreak c = false) →
        (p ++ "//" ++ t ++ "\n" ++ q).utf8ByteSize ≤ options.maxInputBytes →
        (p ++ "//" ++ t' ++ "\n" ++ q).utf8ByteSize ≤ options.maxInputBytes →
          parseText options (p ++ "//" ++ t ++ "\n" ++ q) =
            parseText options (p ++ "//" ++ t' ++ "\n" ++ q)) ∧
      (∀ q : String, ¬ InBlockKey options.maxDepth p ("/**/" ++ q) → ∀ t t' : String,
        ¬ ['*', '/'] <:+: t.toList → ¬ ['*', '/'] <:+: t'.toList →
        (p ++ "/*" ++ t ++ "*/" ++ q).utf8ByteSize ≤ options.maxInputBytes →
        (p ++ "/*" ++ t' ++ "*/" ++ q).utf8ByteSize ≤ options.maxInputBytes →
          SameButPosition (parseText options (p ++ "/*" ++ t ++ "*/" ++ q))
            (parseText options (p ++ "/*" ++ t' ++ "*/" ++ q))) ∧
      ∀ t : String, ¬ ['*', '/'] <:+: t.toList →
        (p ++ "/*" ++ t).utf8ByteSize ≤ options.maxInputBytes →
          parseText options (p ++ "/*" ++ t) = parseText options p := by
  refine ⟨?_, ?_, ?_⟩
  · intro q outside t t' inLine inLine' size size'
    obtain ⟨outcome, same⟩ := parseText_lineComment opens outside
    rw [same t inLine size, same t' inLine' size']
  · intro q outside t t' unclosed unclosed' size size'
    exact parseText_blockComment opens outside unclosed unclosed' size size'
  · intro t unclosed size
    exact parseText_unclosedComment opens unclosed size

/-- A comment in a block of dependencies, with a quote and a brace in its text. -/
theorem parseText_ignores_sampleComment :
    parseText ⟨4, 64, none⟩
        ("dependencies \x7b\n api 'g:n:1'\n" ++ "//" ++ " it's \x7d" ++ "\n" ++ "\x7dk 1") =
        .ok [("dependencies", .dependencies [⟨"g", "n", "1", "api", []⟩])] ∧
      SameButPosition
        (parseText ⟨4, 64, none⟩
          ("dependencies \x7b\n api 'g:n:1'\n" ++ "/*" ++ "// \x7d" ++ "*/" ++ "\x7dk 1"))
        (.ok [("dependencies", .dependencies [⟨"g", "n", "1", "api", []⟩])]) ∧
      parseText ⟨4, 64, none⟩ ("dependencies \x7b\n api 'g:n:1'\n" ++ "/*" ++ "\x7d\nk 1") =
        .ok [("dependencies", .dependencies [⟨"g", "n", "1", "api", []⟩])] := by
  have opens : OpensComment 4 "dependencies \x7b\n api 'g:n:1'\n" := by
    have comments : scriptComments 4 (dropByteOrderMark
        "dependencies \x7b\n api 'g:n:1'\n".toList ++ ['/', '*']) = [['/', '*']] := by
      with_unfolding_all rfl
    rw [OpensComment, comments]
    exact List.mem_singleton_self _
  obtain ⟨lines, blocks, unclosed⟩ := parseText_ignores_comment ⟨4, 64, none⟩ _ opens
  refine ⟨?_, ?_, ?_⟩
  · have outside : scriptKeyTexts 4 (dropByteOrderMark
        "dependencies \x7b\n api 'g:n:1'\n".toList ++ ("//\n" ++ "\x7dk 1").toList) = [] := by
      with_unfolding_all rfl
    have bare : parseText ⟨4, 64, none⟩
        ("dependencies \x7b\n api 'g:n:1'\n" ++ "//" ++ "" ++ "\n" ++ "\x7dk 1") =
        .ok [("dependencies", .dependencies [⟨"g", "n", "1", "api", []⟩])] := by
      with_unfolding_all rfl
    rw [← bare]
    exact lines "\x7dk 1" (by rw [InBlockKey, outside]; exact List.not_mem_nil) " it's \x7d" ""
      (by decide) (by decide) (by decide) (by decide)
  · have outside : scriptKeyTexts 4 (dropByteOrderMark
        "dependencies \x7b\n api 'g:n:1'\n".toList ++ ("/**/" ++ "\x7dk 1").toList) = [] := by
      with_unfolding_all rfl
    have bare : parseText ⟨4, 64, none⟩
        ("dependencies \x7b\n api 'g:n:1'\n" ++ "/*" ++ "" ++ "*/" ++ "\x7dk 1") =
        .ok [("dependencies", .dependencies [⟨"g", "n", "1", "api", []⟩])] := by
      with_unfolding_all rfl
    rw [← bare]
    exact blocks "\x7dk 1" (by rw [InBlockKey, outside]; exact List.not_mem_nil) "// \x7d" ""
      (by decide) (by decide) (by decide) (by decide)
  · have bare : parseText ⟨4, 64, none⟩ "dependencies \x7b\n api 'g:n:1'\n" =
        .ok [("dependencies", .dependencies [⟨"g", "n", "1", "api", []⟩])] := by
      with_unfolding_all rfl
    rw [← bare]
    exact unclosed "\x7d\nk 1" (by decide) (by decide)

/-- A call that becomes the key of a block is the exception: a comment in it is part of the key. -/
theorem parseText_comment_in_key :
    OpensComment 4 "f(a\n" ∧
      parseText ⟨4, 64, none⟩ ("f(a\n" ++ "//" ++ "x" ++ "\n" ++ "b) \x7b \x7d") =
        .ok [("f(a\n//x\nb)", .document [])] ∧
      parseText ⟨4, 64, none⟩ ("f(a\n" ++ "//" ++ "y" ++ "\n" ++ "b) \x7b \x7d") =
        .ok [("f(a\n//y\nb)", .document [])] := by
  have letter : ∀ r, step ⟨4, 0⟩ (State.start .script) 'f' r =
      .next ⟨.script, [], .key "f", []⟩ r := by
    intro r
    rfl
  have start : ∀ r, margin ('f' :: r) = 'f' :: r := fun r => margin_cons_of_not rfl (by decide) r
  -- The call goes up to its parenthesis, with the comment in it.
  have run : ∀ c : Char, c = 'x' ∨ c = 'y' →
      readScope ⟨4, 0⟩ .script ('f' :: ("(a\n//".toList ++ c :: "\nb) \x7b \x7d".toList)) =
        .closed [(String.ofList ("f(a\n//".toList ++ c :: "\nb)".toList), .document [])] [] := by
    rintro c other
    have call : step ⟨4, 0⟩ ⟨.script, [], .key "f", []⟩ '('
        ("a\n//".toList ++ c :: "\nb) \x7b \x7d".toList) =
          .next ⟨.script, [],
            .key (String.ofList ("f(a\n//".toList ++ c :: "\nb)".toList)), []⟩
            "\x7b \x7d".toList := by
      rcases other with rfl | rfl <;> with_unfolding_all rfl
    rw [readScope, start, read_of_next (letter _)]
    refine (read_of_next call).trans ?_
    rcases other with rfl | rfl <;> with_unfolding_all rfl
  refine ⟨?_, ?_, ?_⟩
  · have call : step ⟨4, 0⟩ ⟨.script, [], .key "f", []⟩ '(' "a\n/*".toList =
        .next ⟨.script, [], .key "", []⟩ [] := by with_unfolding_all rfl
    have inCall : stepComments ⟨4, 0⟩ ⟨.script, [], .key "f", []⟩ '(' "a\n/*".toList =
        [['/', '*']] := by with_unfolding_all rfl
    refine List.mem_append_right _ ?_
    show ['/', '*'] ∈ readComments ⟨4, 0⟩ (State.start .script) (margin ('f' :: "(a\n/*".toList))
    rw [start, readComments_of_next (letter _)]
    refine List.mem_append_right _ ?_
    show ['/', '*'] ∈ readComments ⟨4, 0⟩ ⟨.script, [], .key "f", []⟩ ('(' :: "a\n/*".toList)
    rw [readComments_of_next call, inCall]
    exact List.mem_cons_self
  · exact parseText_of_closed (by decide) (run 'x' (.inl rfl))
  · exact parseText_of_closed (by decide) (run 'y' (.inr rfl))

end BuildScript
