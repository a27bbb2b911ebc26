import BuildScript.Proofs.Comments.Skip
import BuildScript.Proofs.Comments.Dependencies

/-!
# Comment lines in a script

A run of the reader begins a line at many places: in every scope, in what it skips and in blocks of
dependencies.  A comment line before any of them leaves the document of the script as it is.
-/

namespace BuildScript

open Text

variable {nesting : Nesting} {st : State} {s s' t r r' : List Char} {c : Char}

/-! ## Lines that a step begins -/

/-- The lines that begin in the block of a key: its text is passed over at once if it declares
dependencies. -/
def blockLines (nesting : Nesting) (st : State) (key : String) (r : List Char) : List (List Char) :=
  if nesting.limit ≤ nesting.depth + st.outer.length then []
  else if key = "dependencies" then dependencyLines r
  else []

/-- The lines that begin in a call that is passed over.  A call that becomes the key of a block keeps
its text. -/
def droppedCallLines (s : List Char) : List (List Char) :=
  match skipIndent (skipCall s) with
  | '{' :: _ => []
  | _ => callLines s

/-- The lines that begin in what a character in a key passes over. -/
def keyLines (st : State) (token : String) (c : Char) (r : List Char) : List (List Char) :=
  if c == '(' then
    if token = "if" then conditionalLines (c :: r)
    else if st.kind.keepsCalls then []
    else droppedCallLines (c :: r)
  else if isDelimiter c then
    if token = "" then []
    else if token = "if" then conditionalLines (c :: r)
    else if token = "else" then alternativeLines (c :: r)
    else if token = "def" then definitionLines (c :: r)
    else []
  else []

/-- The lines that begin in what a step passes over. -/
def passedLines (nesting : Nesting) (st : State) (c : Char) (r : List Char) : List (List Char) :=
  if c == '}' then []
  else match st.line with
    | .done => []
    | .key token =>
      if c == '{' then
        if token = "else" then alternativeLines (c :: r) else blockLines nesting st token r
      else keyLines st token c r
    | .value key _ => if c == '{' then blockLines nesting st key r else []

/-- The lines that begin before an `else` in what a step passes over. -/
def passedElseLines (st : State) (c : Char) (r : List Char) : List (List Char) :=
  match st.line with
  | .done => []
  | .key token =>
    if token = "if" then if c == '(' || isDelimiter c then elseLines (c :: r) else []
    else if token = "else" then if c == '{' || isDelimiter c then laterElseLines (c :: r) else []
    else []
  | .value _ _ => []

/-- The lines that a step of the reader begins. -/
def stepLines (nesting : Nesting) (st : State) (c : Char) (r : List Char) : List (List Char) :=
  if isLineBreak c then [r] else passedLines nesting st c r ++ passedElseLines st c r

/-- The lines that the reader begins from a state on. -/
def lineStarts (nesting : Nesting) (st : State) : List Char → List (List Char)
  | [] => []
  | c :: r =>
    match h : step nesting st c r with
    | .next next rest =>
      have := (suffix_of_step h).length_le
      stepLines nesting st c r ++ lineStarts nesting next rest
    | .closed _ _ => []
    | .tooDeep _ => []
  termination_by s => s.length

/-- The lines that the reader begins in a script, each as the text from its start on. -/
def scriptLines (limit : Nat) (s : List Char) : List (List Char) :=
  s :: lineStarts ⟨limit, 0⟩ (State.start .script) (margin s)

theorem keyLines_eq_role (st : State) (token : String) (c : Char) (r : List Char) :
    keyLines st token c r =
      (keyRole st.kind token c).passed (droppedCallLines (c :: r)) (conditionalLines (c :: r))
        (alternativeLines (c :: r)) (definitionLines (c :: r)) [] := by
  unfold keyLines keyRole
  repeat' split
  all_goals rfl

theorem passedLines_eq_role (inLine : isLineBreak c = false) (nesting : Nesting) (st : State)
    (r : List Char) :
    passedLines nesting st c r =
      (st.role c).passed [] [] (alternativeLines (c :: r)) (fun key => blockLines nesting st key r)
        (fun token => keyLines st token c r) [] := by
  unfold passedLines State.role
  simp only [inLine, Bool.false_eq_true, if_false]
  split
  · rfl
  · cases st.line <;> dsimp only <;> repeat' split
    all_goals rfl

/-! ## Steps -/

theorem of_mem_blockLines {key : String} (line : t ∈ blockLines nesting st key r) :
    ¬ nesting.limit ≤ nesting.depth + st.outer.length ∧ key = "dependencies" ∧
      t ∈ dependencyLines r := by
  unfold blockLines at line
  split at line
  · cases line
  · next room =>
    split at line
    · next special => exact ⟨room, special, line⟩
    · cases line

theorem openBlock_same (note : CommentLine) {key : String} (line : t ∈ blockLines nesting st key r)
    (agree : Agree t (note.text ++ t) (c :: r) (c :: r')) :
    openBlock nesting st key r' = openBlock nesting st key r := by
  obtain ⟨room, special, line⟩ := of_mem_blockLines line
  obtain ⟨_, same, behind⟩ := (transparent_blockDependencies.begins line).behind agree
  cases same
  rw [openBlock, openBlock, if_neg room, if_neg room, if_pos special, if_pos special,
    transparent_blockDependencies.same note line behind]

theorem callStep_same (note : CommentLine) {token : String} (line : t ∈ droppedCallLines s)
    (agree : Agree t (note.text ++ t) s s') : callStep st token s' = callStep st token s := by
  unfold droppedCallLines at line
  split at line
  · cases line
  · next absent =>
    have dropped : ∀ s, (∀ rest, skipIndent (skipCall s) = '{' :: rest → False) →
        callStep st token s = .next { st with line := .key "" } (skipCall s) := by
      intro s absent
      simp only [callStep]
    have same := transparent_skipCall.same note line agree
    rw [dropped s absent, dropped s' (by rwa [same]), same]

theorem keyStep_same (note : CommentLine) {token : String} (line : t ∈ keyLines st token c r)
    (agree : Agree t (note.text ++ t) (c :: r) (c :: r')) :
    keyStep st token c r' = keyStep st token c r := by
  rw [keyLines_eq_role] at line
  rw [keyStep_eq_role, keyStep_eq_role]
  generalize keyRole st.kind token c = role at line ⊢
  cases role with
  | call => exact callStep_same note line agree
  | conditional => exact congrArg (Step.next _) (transparent_skipConditional.same note line agree)
  | alternative => exact congrArg (Step.next _) (transparent_skipAlternative.same note line agree)
  | definition => exact congrArg (KeyRole.definedStep st) (transparent_definition.same note line agree)
  | _ => cases line

/-- A step comes to the same with a comment line before a line in what it passes over. -/
theorem step_same (note : CommentLine) (inLine : isLineBreak c = false)
    (line : t ∈ passedLines nesting st c r)
    (agree : Agree t (note.text ++ t) (c :: r) (c :: r')) :
    step nesting st c r' = step nesting st c r := by
  rw [passedLines_eq_role inLine] at line
  rw [step_eq_role, step_eq_role]
  generalize st.role c = role at line ⊢
  cases role with
  | alternative => exact congrArg (Step.next _) (transparent_skipAlternative.same note line agree)
  | opening key => exact openBlock_same note line agree
  | inKey token => exact keyStep_same note line agree
  | _ => cases line

/-! ## Before an `else` -/

theorem read_newLine {kind : ScopeKind} {doc : Document} {outer : List Frame}
    (h : isLineBreak c = true) (r : List Char) :
    read nesting ⟨kind, doc, .key "", outer⟩ (c :: r) =
      read nesting ⟨kind, doc, .key "", outer⟩ (margin r) :=
  read_lineBreak h (.key "") r

/-- White space before a line break says nothing at the start of a line. -/
theorem read_margin_space {kind : ScopeKind} {doc : Document} {outer : List Frame}
    {blanks : List Char} (h : ∀ d ∈ blanks, isSpace d = true) (lineBreak : isLineBreak c = true)
    (r : List Char) :
    read nesting ⟨kind, doc, .key "", outer⟩ (margin (blanks ++ c :: r)) =
      read nesting ⟨kind, doc, .key "", outer⟩ (margin r) := by
  induction blanks with
  | nil => rw [List.nil_append, margin_lineBreak lineBreak, read_newLine lineBreak]
  | cons d blanks ih =>
    have behind := ih fun e he => h e (List.mem_cons_of_mem d he)
    rw [List.cons_append]
    rcases Bool.or_eq_true_iff.1 (h d List.mem_cons_self) with indent | ends
    · rw [margin_cons_of_isIndent indent, behind]
    · rw [margin_lineBreak ends, read_newLine ends, behind]

/-- White space before a line break says nothing behind a known result. -/
theorem read_done_space {kind : ScopeKind} {doc : Document} {outer : List Frame}
    {blanks : List Char} (h : ∀ d ∈ blanks, isSpace d = true) (lineBreak : isLineBreak c = true)
    (r : List Char) :
    read nesting ⟨kind, doc, .done, outer⟩ (blanks ++ c :: r) =
      read nesting ⟨kind, doc, .key "", outer⟩ (margin r) := by
  induction blanks with
  | nil => exact read_lineBreak lineBreak .done r
  | cons d blanks ih =>
    have inner : ∀ e ∈ blanks, isSpace e = true := fun e he => h e (List.mem_cons_of_mem d he)
    rw [List.cons_append]
    rcases Bool.or_eq_true_iff.1 (h d List.mem_cons_self) with indent | ends
    · have passes : isLineBreak d = false ∧ d ≠ '}' := by
        rcases eq_of_isIndent indent with rfl | rfl <;> decide
      rw [read_of_next (step_done passes.1 passes.2 _), ih inner]
    · rw [read_lineBreak ends, read_margin_space inner lineBreak]
      rfl

/-- A reader that comes to an `else` at the start of a line skips the alternative behind it. -/
theorem read_else {kind : ScopeKind} {doc : Document} {outer : List Frame}
    (starts : startsAlternative r = true) :
    read nesting ⟨kind, doc, .key "", outer⟩ ("else".toList ++ r) =
      read nesting ⟨kind, doc, .done, outer⟩ (skipAlternative r) := by
  have keyword : "" ++ String.ofList "else".toList = "else" := by decide
  rw [read_word "" (by decide), keyword]
  cases r with
  | nil => cases starts
  | cons c r =>
    have first : isDelimiter c = true ∨ c = '{' := by simpa [startsAlternative] using starts
    exact read_of_next (step_else first.symm r)

/-- Behind a comment line before an `else` the reader comes to the alternative by itself. -/
theorem StopsBeforeElse.read_eq {note : CommentLine} {left left' : List Char}
    (h : StopsBeforeElse note t left left') (kind : ScopeKind) (doc : Document)
    (outer : List Frame) :
    read nesting ⟨kind, doc, .done, outer⟩ left' =
      read nesting ⟨kind, doc, .done, outer⟩ left := by
  obtain ⟨blanks, c, spaces, lineBreak, rfl⟩ := h.stops
  obtain ⟨r, ahead, starts, rfl⟩ := h.alternative
  have reaches : ∀ t : List Char, skipSpace t = "else".toList ++ r →
      read nesting ⟨kind, doc, .key "", outer⟩ (margin t) =
        read nesting ⟨kind, doc, .key "", outer⟩ ("else".toList ++ r) := by
    intro t ahead
    induction t with
    | nil => cases ahead
    | cons d t ih =>
      cases space : isSpace d with
      | true =>
        have behind : skipSpace t = "else".toList ++ r := by
          rw [← ahead, skipSpace, skipSpace, List.dropWhile_cons_of_pos space]
        rcases Bool.or_eq_true_iff.1 space with indent | ends
        · rw [margin_cons_of_isIndent indent, ih behind]
        · rw [margin_lineBreak ends, read_newLine ends, ih behind]
      | false =>
        rw [skipSpace, List.dropWhile_cons_of_neg (by simp [space])] at ahead
        rw [ahead]
        exact congrArg _ (margin_cons_of_not (by decide) (by decide) _)
  calc read nesting ⟨kind, doc, .done, outer⟩ (blanks ++ c :: (note.text ++ t))
      = read nesting ⟨kind, doc, .key "", outer⟩ (margin (note.text ++ t)) :=
        read_done_space spaces lineBreak _
    _ = read nesting ⟨kind, doc, .key "", outer⟩ (margin t) := note.passes read_newLine t
    _ = read nesting ⟨kind, doc, .key "", outer⟩ ("else".toList ++ r) := reaches t ahead
    _ = read nesting ⟨kind, doc, .done, outer⟩ (skipAlternative r) := read_else starts

/-- A reader that stops at a comment line before an `else` takes the alternative later. -/
theorem read_of_mem_passedElseLines (note : CommentLine) (line : t ∈ passedElseLines st c r)
    (agree : Agree t (note.text ++ t) (c :: r) (c :: r')) :
    read nesting st (c :: r') = read nesting st (c :: r) := by
  obtain ⟨kind, doc, state, outer⟩ := st
  unfold passedElseLines at line
  cases state with
  | done => cases line
  | value key raw => cases line
  | key token =>
    simp only at line
    split at line
    · next keyword =>
      subst keyword
      split at line
      · next first =>
        have starts : c = '(' ∨ isDelimiter c = true := by simpa using first
        rw [read_of_next (step_if starts r), read_of_next (step_if starts r')]
        exact (skipConditional_of_mem_elseLines note line agree).read_eq kind doc outer
      · cases line
    · split at line
      · next keyword =>
        subst keyword
        split at line
        · next first =>
          have starts : c = '{' ∨ isDelimiter c = true := by simpa using first
          rw [read_of_next (step_else starts r), read_of_next (step_else starts r')]
          exact (skipAlternative_of_mem_laterElseLines note line agree).read_eq kind doc outer
        · cases line
      · cases line

/-! ## Runs -/

theorem beginsLine_of_mem_keyLines {token : String} (line : t ∈ keyLines st token c r) :
    BeginsLine t (c :: r) := by
  rw [keyLines_eq_role] at line
  generalize keyRole st.kind token c = role at line
  cases role with
  | call =>
    change t ∈ droppedCallLines (c :: r) at line
    unfold droppedCallLines at line
    split at line
    · cases line
    · exact transparent_skipCall.begins line
  | conditional => exact transparent_skipConditional.begins line
  | alternative => exact transparent_skipAlternative.begins line
  | definition => exact transparent_definition.begins line
  | _ => cases line

theorem beginsLine_of_mem_passedLines (inLine : isLineBreak c = false)
    (line : t ∈ passedLines nesting st c r) : BeginsLine t (c :: r) := by
  rw [passedLines_eq_role inLine] at line
  generalize st.role c = role at line
  cases role with
  | alternative => exact transparent_skipAlternative.begins line
  | opening key => exact (transparent_blockDependencies.begins (of_mem_blockLines line).2.2).cons c
  | inKey token => exact beginsLine_of_mem_keyLines line
  | _ => cases line

theorem beginsLine_of_mem_passedElseLines (line : t ∈ passedElseLines st c r) :
    BeginsLine t (c :: r) := by
  unfold passedElseLines at line
  repeat' split at line
  all_goals first | cases line | exact beginsLine_of_mem_elseLines line |
    exact beginsLine_of_mem_laterElseLines line

theorem beginsLine_of_mem_stepLines (line : t ∈ stepLines nesting st c r) :
    BeginsLine t (c :: r) := by
  unfold stepLines at line
  split at line
  · next lineBreak =>
    rw [List.mem_singleton.1 line]
    exact ⟨c, lineBreak, List.suffix_refl _⟩
  · next inLine =>
    rcases List.mem_append.1 line with passed | passed
    · exact beginsLine_of_mem_passedLines (by simpa using inLine) passed
    · exact beginsLine_of_mem_passedElseLines passed

theorem beginsLine_of_mem_lineStarts (line : t ∈ lineStarts nesting st s) : BeginsLine t s := by
  fun_induction lineStarts nesting st s with
  | case1 => cases line
  | case2 st c r next rest taken _ ih =>
    rcases List.mem_append.1 line with here | later
    · exact beginsLine_of_mem_stepLines here
    · exact ((ih later).of_suffix (suffix_of_step taken)).cons c
  | case3 => cases line
  | case4 => cases line

/-- The first step of a run from a line that the step begins. -/
theorem read_of_mem_stepLines (note : CommentLine) (line : t ∈ stepLines nesting st c r)
    (agree : Agree t (note.text ++ t) (c :: r) s') :
    read nesting st s' = read nesting st (c :: r) := by
  unfold stepLines at line
  split at line
  · next lineBreak =>
    obtain rfl := List.mem_singleton.1 line
    obtain ⟨kind, doc, state, outer⟩ := st
    rw [agree.at_mark, read_lineBreak lineBreak, read_lineBreak lineBreak]
    exact note.passes read_newLine t
  · next code =>
    obtain ⟨r', rfl⟩ := agree.exists_cons
    rcases List.mem_append.1 line with passed | passed
    · have same := step_same note (by simpa using code) passed agree
      cases taken : step nesting st c r with
      | next next rest => rw [read_of_next taken, read_of_next (same.trans taken)]
      | closed doc rest => rw [read_of_closed taken, read_of_closed (same.trans taken)]
      | tooDeep rest => rw [read_of_tooDeep taken, read_of_tooDeep (same.trans taken)]
    · exact read_of_mem_passedElseLines note passed agree

/-- A comment line before a line that the reader begins does not change what it reads. -/
theorem read_commentLine (note : CommentLine) (line : t ∈ lineStarts nesting st s)
    (agree : Agree t (note.text ++ t) s s') : read nesting st s' = read nesting st s := by
  fun_induction lineStarts nesting st s generalizing s' with
  | case1 => cases line
  | case2 st c r next rest taken _ ih =>
    rcases List.mem_append.1 line with here | later
    · exact read_of_mem_stepLines note here agree
    · have short := (beginsLine_of_mem_lineStarts later).length_lt
      obtain ⟨r', rfl, behind⟩ := agree.behind (suffix_of_step taken) short
      have alike := step_agree nesting st c behind (by rwa [taken])
      rw [taken] at alike
      generalize same : step nesting st c r' = taken' at alike
      cases alike with
      | next _ onward => rw [read_of_next taken, read_of_next same, ih later onward]
  | case3 => cases line
  | case4 => cases line

/-! ## Scripts -/

/-- A script with a comment line before one of its lines is read like the script itself. -/
theorem readScope_commentLine (note : CommentLine) {limit : Nat} {before : List Char}
    (line : t ∈ scriptLines limit (before ++ t)) :
    readScope ⟨limit, 0⟩ .script (before ++ (note.text ++ t)) =
      readScope ⟨limit, 0⟩ .script (before ++ t) := by
  rcases List.mem_cons.1 line with whole | later
  · have none : before = [] := by
      have length := congrArg List.length whole
      rw [List.length_append] at length
      exact List.length_eq_zero_iff.1 (by omega)
    subst none
    exact note.passes read_newLine t
  · have begins := beginsLine_of_mem_lineStarts later
    obtain ⟨c, lineBreak, p, text⟩ := begins.of_suffix (margin_suffix _)
    have ends : p ++ [c] = before :=
      List.append_cancel_right (by rw [List.append_assoc]; exact text)
    have agree : Agree t (note.text ++ t) (before ++ t) (before ++ (note.text ++ t)) := by
      rw [← ends, List.append_assoc, List.append_assoc]
      exact (Agree.mark (note.isMark lineBreak t)).prepend p
    exact read_commentLine note later (margin_local agree begins.length_lt)

/-- Comment transparency.  A comment line before a line that the reader begins leaves the document of
a script as it is. -/
theorem parseText_commentLine (options : ParseOptions) (note : CommentLine) {input input' : String}
    {before t : List Char} (text : dropByteOrderMark input.toList = before ++ t)
    (text' : dropByteOrderMark input'.toList = before ++ (note.text ++ t))
    (line : t ∈ scriptLines options.maxDepth (before ++ t))
    (size : input.utf8ByteSize ≤ options.maxInputBytes)
    (size' : input'.utf8ByteSize ≤ options.maxInputBytes) (doc : Document) :
    parseText options input' = .ok doc ↔ parseText options input = .ok doc := by
  simp only [parseText, if_neg (Nat.not_lt.2 size), if_neg (Nat.not_lt.2 size'), text, text',
    readScope_commentLine note line]
  cases readScope ⟨options.maxDepth, 0⟩ .script (before ++ t) with
  | closed found rest => rfl
  | tooDeep rest => simp

/-- A comment with a brace and a quote in it. -/
def sampleComment : CommentLine :=
  .line ⟨[' '], Grammar.isIndent_of_mem_space⟩ ⟨" it's \x7d".toList, by decide⟩ .lineFeed

/-- A comment line among the rules of a declaration. -/
theorem parseText_sampleComment :
    parseText ⟨4, 128, none⟩
        "dependencies \x7b\n api('g:n:1') \x7b\n // it's \x7d\nexclude group: 'x'\n\x7d\n\x7d" =
      .ok [("dependencies",
        .dependencies [⟨"g", "n", "1", "api", [[("group", "x")]]⟩])] := by
  have lines : scriptLines 4
        ("dependencies \x7b\n api('g:n:1') \x7b\n".toList ++
          "exclude group: 'x'\n\x7d\n\x7d".toList) =
      ["dependencies \x7b\n api('g:n:1') \x7b\nexclude group: 'x'\n\x7d\n\x7d".toList,
        " api('g:n:1') \x7b\nexclude group: 'x'\n\x7d\n\x7d".toList,
        "exclude group: 'x'\n\x7d\n\x7d".toList, "\x7d\n\x7d".toList, "\x7d".toList] := by
    decide +kernel
  have bare : parseText ⟨4, 128, none⟩
        "dependencies \x7b\n api('g:n:1') \x7b\nexclude group: 'x'\n\x7d\n\x7d" =
      .ok [("dependencies",
        .dependencies [⟨"g", "n", "1", "api", [[("group", "x")]]⟩])] := by with_unfolding_all rfl
  refine (parseText_commentLine ⟨4, 128, none⟩ sampleComment ?_ ?_ (by rw [lines]; simp) (by decide)
    (by decide) _).2 bare
  · rfl
  · rfl

/-- A bracketed list has no lines: a comment line in it is text of an item. -/
theorem parseText_commentInList :
    parseText ⟨4, 128, none⟩ "k [a,\nb]" = .ok [("k", .sequence [.text "a", .text "b"])] ∧
      parseText ⟨4, 128, none⟩ "k [a,\n// note\nb]" =
        .ok [("k", .sequence [.text "a", .text "// note\nb"])] := by
  constructor
  · with_unfolding_all rfl
  · with_unfolding_all rfl

end BuildScript
