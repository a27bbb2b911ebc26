import BuildScript.Proofs.Nesting
import BuildScript.Proofs.Comments.Irrelevance
import BuildScript.Proofs.LineBreaks.Dependencies
import BuildScript.Proofs.LineBreaks.Documents
import Mathlib.Data.String.Basic

/-!
# Scripts with other line breaks

A script in which every line ends in a carriage return and a line feed is read like the script with
line feeds alone, unless a literal that is passed over joins two of its lines: step for step the
reader is in the same place, with carriage returns in the keys and texts that it has gathered.  Both
scripts fail alike, and their documents are the same if no key and no text runs over several lines.
-/

namespace BuildScript

open Text

variable {nesting : Nesting} {st : State} {s r : List Char} {c : Char}

/-! ## States -/

def Line.crlf : Line → Line
  | .key token => .key (Breaks.crlf.text token)
  | .value name raw => .value (Breaks.crlf.text name) (Breaks.crlf.text raw)
  | .done => .done

def Frame.crlf (frame : Frame) : Frame :=
  ⟨Breaks.crlf.text frame.key, frame.kind, frame.doc.crlf⟩

/-- The state in the same place, with carriage returns in what is gathered. -/
def State.crlf (st : State) : State :=
  ⟨st.kind, st.doc.crlf, st.line.crlf, st.outer.map Frame.crlf⟩

def Step.crlf : Step → Step
  | .next st rest => .next st.crlf (BuildScript.crlf rest)
  | .closed doc rest => .closed doc.crlf (BuildScript.crlf rest)
  | .tooDeep rest => .tooDeep (BuildScript.crlf rest)

def Reading.crlf : Reading → Reading
  | .closed doc rest => .closed doc.crlf (BuildScript.crlf rest)
  | .tooDeep rest => .tooDeep (BuildScript.crlf rest)

theorem Line.store_crlf (line : Line) (kind : ScopeKind) (doc : Document) :
    line.crlf.store kind doc.crlf = (line.store kind doc).crlf := by
  cases line with
  | key token => exact kind.storeSetting_crlf token "" doc
  | value name raw => exact kind.storeSetting_crlf name raw doc
  | done => rfl

theorem unwind_crlf (doc : Document) (kind : ScopeKind) (outer : List Frame) :
    unwind doc.crlf kind (outer.map Frame.crlf) = (unwind doc kind outer).crlf := by
  induction outer generalizing doc kind with
  | nil => rfl
  | cons frame outer ih =>
    rw [List.map_cons, unwind, unwind, ← ih, Frame.crlf, kind.value_crlf,
      frame.kind.storeBlock_crlf]

namespace State

theorem finished_crlf (st : State) : st.crlf.finished = st.finished.crlf :=
  st.line.store_crlf st.kind st.doc

theorem newLine_crlf (st : State) : st.crlf.newLine = st.newLine.crlf := by
  show (⟨st.kind, st.crlf.finished, .key "", st.outer.map Frame.crlf⟩ : State) = _
  rw [finished_crlf]
  rfl

/-- The line feed behind a carriage return ends an empty line. -/
theorem newLine_newLine (st : State) : st.newLine.newLine = st.newLine := rfl

theorem leave_crlf (st : State) (frame : Frame) (outer : List Frame) :
    st.crlf.leave frame.crlf (outer.map Frame.crlf) = (st.leave frame outer).crlf := by
  have value : st.kind.value st.crlf.finished = (st.kind.value st.finished).crlf := by
    rw [finished_crlf, ScopeKind.value_crlf]
  have stored : frame.kind.storeBlock (Breaks.crlf.text frame.key)
      (st.kind.value st.crlf.finished) frame.doc.crlf =
        (frame.kind.storeBlock frame.key (st.kind.value st.finished) frame.doc).crlf := by
    rw [value, ScopeKind.storeBlock_crlf]
  exact congrArg (fun doc => (⟨frame.kind, doc, .done, outer.map Frame.crlf⟩ : State)) stored

theorem enter_crlf (st : State) (key : String) :
    st.crlf.enter (Breaks.crlf.text key) = (st.enter key).crlf := by
  unfold enter
  rw [ScopeKind.ofBlock_crlf]
  rfl

theorem withBlock_crlf (st : State) (key : String) (v : Value) :
    st.crlf.withBlock (Breaks.crlf.text key) v.crlf = (st.withBlock key v).crlf := by
  unfold withBlock
  rw [State.crlf, st.kind.storeBlock_crlf]
  rfl

end State

/-! ## Joined lines -/

/-- What a character in a key passes over joins lines. -/
def keyJoins (st : State) (token : String) (c : Char) (r : List Char) : Bool :=
  if c == '(' then
    if token = "if" then conditionalJoins (c :: r)
    else if st.kind.keepsCalls then false
    else callJoins (c :: r)
  else if isDelimiter c then
    if token = "" then false
    else if token = "if" then conditionalJoins (c :: r)
    else if token = "else" then alternativeJoins (c :: r)
    else if token = "def" then definitionJoins (c :: r)
    else false
  else false

/-- What a step passes over joins lines. -/
def stepJoins (st : State) (c : Char) (r : List Char) : Bool :=
  match st.line with
  | .done => false
  | .key token =>
    if c == '{' then if token = "else" then alternativeJoins (c :: r) else false
    else keyJoins st token c r
  | .value _ _ => false

/-- What the reader passes over from a state on joins lines. -/
def readJoins (nesting : Nesting) (st : State) : List Char → Bool
  | [] => false
  | c :: r =>
    match h : step nesting st c r with
    | .next next rest =>
      have := (suffix_of_step h).length_le
      stepJoins st c r || readJoins nesting next rest
    | .closed _ _ => stepJoins st c r
    | .tooDeep _ => stepJoins st c r
  termination_by s => s.length

/-- In a literal that is passed over in the script a backslash takes a line feed with it. -/
def joinsLines (limit : Nat) (input : String) : Bool :=
  readJoins ⟨limit, 0⟩ (State.start .script) (margin (dropByteOrderMark input.toList))

theorem mem_of_stepJoins (h : stepJoins st c r = true) : '\\' ∈ c :: r := by
  unfold stepJoins keyJoins at h
  repeat' split at h
  all_goals
    first
    | cases h
    | exact mem_of_conditionalJoins h
    | exact mem_of_alternativeJoins h
    | exact mem_of_definitionJoins h
    | exact mem_of_callJoins h

theorem mem_of_readJoins (h : readJoins nesting st s = true) : '\\' ∈ s := by
  fun_induction readJoins nesting st s with
  | case1 => cases h
  | case2 st c r next rest taken _ ih =>
    rcases Bool.or_eq_true_iff.1 h with here | later
    · exact mem_of_stepJoins here
    · exact List.mem_cons_of_mem c ((suffix_of_step taken).mem (ih later))
  | case3 => exact mem_of_stepJoins h
  | case4 => exact mem_of_stepJoins h

theorem joinsLines_eq_false {limit : Nat} {input : String} (noBackslash : '\\' ∉ input.toList) :
    joinsLines limit input = false := by
  rw [Bool.eq_false_iff]
  intro joins
  have inMargin := (margin_suffix _).mem (mem_of_readJoins joins)
  exact noBackslash ((dropByteOrderMark_suffix _).mem inMargin)

/-! ## Steps -/

theorem openBlock_crlf (plain : '\r' ∉ r) (key : String) :
    openBlock nesting st.crlf (Breaks.crlf.text key) (crlf r) =
      (openBlock nesting st key r).crlf := by
  have full : nesting.depth + st.crlf.outer.length = nesting.depth + st.outer.length := by
    simp [State.crlf]
  unfold openBlock
  rw [full, blockDependencies_crlf plain, margin_crlf, State.enter_crlf]
  simp only [crlfText_eq_iff (by decide : '\n' ∉ "dependencies".toList)]
  split
  · rfl
  · split
    · exact congrArg (fun next => Step.next next _) (st.withBlock_crlf key (.dependencies _))
    · rfl

theorem closeBlock_crlf (r : List Char) :
    closeBlock nesting st.crlf (crlf r) = (closeBlock nesting st r).crlf := by
  unfold closeBlock
  cases outer : st.outer with
  | cons frame outer' =>
    rw [show st.crlf.outer = frame.crlf :: outer'.map Frame.crlf by rw [State.crlf, outer]; rfl]
    exact congrArg (fun next => Step.next next (crlf r)) (st.leave_crlf frame outer')
  | nil =>
    rw [show st.crlf.outer = [] by rw [State.crlf, outer]; rfl]
    dsimp only
    split
    · rw [State.newLine_crlf, margin_crlf]
      rfl
    · rw [State.finished_crlf]
      rfl

theorem callStep_crlf (plain : callJoins s = false) (token : String) :
    callStep st.crlf (Breaks.crlf.text token) (crlf s) = (callStep st token s).crlf := by
  have taken : (crlf s).take ((crlf s).length - (crlf (skipCall s)).length) =
      crlf (s.take (s.length - (skipCall s).length)) := by
    obtain ⟨call, text⟩ := skipCall_suffix s
    generalize skipCall s = rest at text
    rw [← text, crlf_append, take_length_sub, take_length_sub]
  simp only [callStep, skipCall_crlf plain, skipIndent_crlf, taken]
  split
  · next t opens =>
    obtain ⟨rest, same, rfl⟩ := exists_of_crlf_eq_cons (by decide) opens
    rw [same, ← crlfText_ofList, ← Breaks.text_append]
    rfl
  · next closed =>
    split
    · next rest opens => exact absurd (by rw [opens]; rfl) (closed (crlf rest))
    · rfl

theorem keyJoins_eq_role (st : State) (token : String) (c : Char) (r : List Char) :
    keyJoins st token c r =
      (keyRole st.kind token c).passed (callJoins (c :: r)) (conditionalJoins (c :: r))
        (alternativeJoins (c :: r)) (definitionJoins (c :: r)) false := by
  unfold keyJoins keyRole
  repeat' split
  all_goals rfl

theorem keyRole_crlf (kind : ScopeKind) (token : String) (c : Char) :
    keyRole kind (Breaks.crlf.text token) c = keyRole kind token c := by
  unfold keyRole
  simp only [crlfText_eq_iff (by decide : '\n' ∉ "".toList),
    crlfText_eq_iff (by decide : '\n' ∉ "if".toList),
    crlfText_eq_iff (by decide : '\n' ∉ "else".toList),
    crlfText_eq_iff (by decide : '\n' ∉ "def".toList)]

theorem definedStep_crlf (st : State) (found : Option (List Char) × List Char) :
    KeyRole.definedStep st.crlf (found.1.map crlf, crlf found.2) =
      (KeyRole.definedStep st found).crlf := by
  obtain ⟨_ | name, rest⟩ := found
  · rfl
  · rw [Option.map_some, KeyRole.definedStep, ← crlfText_ofList]
    rfl

theorem keyStep_crlf (inLine : c ≠ '\n') (token : String) (plain : keyJoins st token c r = false) :
    keyStep st.crlf (Breaks.crlf.text token) c (crlf r) = (keyStep st token c r).crlf := by
  rw [keyJoins_eq_role] at plain
  rw [keyStep_eq_role, keyStep_eq_role, keyRole_crlf, show st.crlf.kind = st.kind from rfl]
  generalize keyRole st.kind token c = role at plain ⊢
  cases role with
  | inWord =>
    rw [KeyRole.step, ← Breaks.crlf.text_push token inLine]
    rfl
  | leading => rfl
  | setting => rfl
  | call =>
    rw [KeyRole.step, ← crlf_cons inLine]
    exact callStep_crlf plain token
  | conditional =>
    rw [KeyRole.step, ← crlf_cons inLine, skipConditional_crlf plain]
    rfl
  | alternative =>
    rw [KeyRole.step, ← crlf_cons inLine, skipAlternative_crlf plain]
    rfl
  | definition =>
    rw [KeyRole.step, ← crlf_cons inLine, definition_crlf plain]
    exact definedStep_crlf st _

theorem valueStep_crlf (inLine : c ≠ '\n') (key raw : String) (r : List Char) :
    valueStep st.crlf (Breaks.crlf.text key) (Breaks.crlf.text raw) c (crlf r) =
      (valueStep st key raw c r).crlf := by
  have added : st.crlf.doc.add (Breaks.crlf.text key) (.sequence ((listItems r).1.map Value.crlf)) =
      (st.doc.add key (.sequence (listItems r).1)).crlf := by
    rw [← Document.add_crlf, Value.crlf, crlfItems_eq_map]
    rfl
  unfold valueStep
  simp only [Breaks.text_eq_empty_iff, ← Breaks.crlf.text_push raw inLine, listItems_crlf, added]
  split
  · rfl
  · split
    · split <;> rfl
    · rfl

/-- A step over a character of a line is the same step. -/
theorem step_crlf (inLine : c ≠ '\n') (noReturn : '\r' ∉ r) (plain : stepJoins st c r = false) :
    step nesting st.crlf c (crlf r) = (step nesting st c r).crlf := by
  unfold stepJoins at plain
  unfold step
  rw [margin_crlf, closeBlock_crlf, State.newLine_crlf, ← crlf_cons inLine,
    show st.crlf.line = st.line.crlf from rfl]
  split
  · rfl
  · split
    · rfl
    · cases place : st.line with
      | done => rfl
      | key token =>
        simp only [place] at plain
        simp only [Line.crlf, crlfText_eq_iff (by decide : '\n' ∉ "else".toList),
          openBlock_crlf noReturn]
        split
        · next brace =>
          rw [if_pos brace] at plain
          split
          · next alternative =>
            rw [if_pos alternative] at plain
            rw [skipAlternative_crlf plain]
            rfl
          · rfl
        · next inKey =>
          rw [if_neg inKey] at plain
          exact keyStep_crlf inLine token plain
      | value name raw =>
        simp only [Line.crlf, openBlock_crlf noReturn, valueStep_crlf inLine]
        split <;> rfl

/-! ## Runs -/

theorem step_lineBreak (h : isLineBreak c = true) (st : State) (r : List Char) :
    step nesting st c r = .next st.newLine (margin r) := if_pos h

/-- The carriage return ends the line, and the line feed ends an empty one. -/
theorem read_lineFeed_crlf (st : State) (r : List Char) :
    read nesting st.crlf (crlf ('\n' :: r)) = read nesting st.newLine.crlf (crlf (margin r)) := by
  rw [crlf_lineFeed, read_of_next (step_lineBreak (by decide) _ _), margin_lineFeed_crlf,
    read_of_next (step_lineBreak (by decide) _ _), State.newLine_newLine, State.newLine_crlf,
    margin_crlf]

theorem read_crlf (noReturn : '\r' ∉ s) (plain : readJoins nesting st s = false) :
    read nesting st.crlf (crlf s) = (read nesting st s).crlf := by
  have inLine : ∀ {st : State} {c : Char} {r : List Char},
      (∀ next rest, step nesting st c r ≠ .next next rest) → c ≠ '\n' := by
    rintro st c r ends rfl
    exact ends _ _ (step_lineBreak (by decide) st r)
  have behind : ∀ {c : Char} {r : List Char}, '\r' ∉ c :: r → '\r' ∉ r :=
    fun noReturn found => noReturn (List.mem_cons_of_mem _ found)
  fun_induction readJoins nesting st s with
  | case1 st =>
    rw [show crlf [] = [] from rfl, read_nil, read_nil, State.finished_crlf]
    exact congrArg (fun doc => Reading.closed doc []) (unwind_crlf ..)
  | case2 st c r next rest taken _ ih =>
    obtain ⟨here, later⟩ := Bool.or_eq_false_iff.1 plain
    have onward := ih (fun found => behind noReturn ((suffix_of_step taken).mem found)) later
    rw [read_of_next taken]
    by_cases lineFeed : c = '\n'
    · subst lineFeed
      cases (step_lineBreak (by decide) st r).symm.trans taken
      rw [read_lineFeed_crlf]
      exact onward
    · have taken' : step nesting st.crlf c (crlf r) = .next next.crlf (crlf rest) := by
        rw [step_crlf lineFeed (behind noReturn) here, taken]
        rfl
      rw [crlf_cons lineFeed, read_of_next taken']
      exact onward
  | case3 st c r doc rest taken =>
    have other := inLine fun next left goesOn => by cases taken.symm.trans goesOn
    have taken' : step nesting st.crlf c (crlf r) = .closed doc.crlf (crlf rest) := by
      rw [step_crlf other (behind noReturn) plain, taken]
      rfl
    rw [crlf_cons other, read_of_closed taken, read_of_closed taken']
    rfl
  | case4 st c r rest taken =>
    have other := inLine fun next left goesOn => by cases taken.symm.trans goesOn
    have taken' : step nesting st.crlf c (crlf r) = .tooDeep (crlf rest) := by
      rw [step_crlf other (behind noReturn) plain, taken]
      rfl
    rw [crlf_cons other, read_of_tooDeep taken, read_of_tooDeep taken']
    rfl

/-! ## Positions and sizes -/

theorem count_lineFeed_crlf (s : List Char) : (crlf s).count '\n' = s.count '\n' := by
  induction s with
  | nil => rfl
  | cons c s ih =>
    by_cases lineFeed : c = '\n'
    · subst lineFeed
      rw [crlf_lineFeed, List.count_cons_of_ne (by decide), List.count_cons_self,
        List.count_cons_self, ih]
    · rw [crlf_cons lineFeed, List.count_cons_of_ne lineFeed, List.count_cons_of_ne lineFeed, ih]

/-- The last line of a text has no line feed, and so it stays the same. -/
theorem lastLine_crlf (s : List Char) :
    (crlf s).reverse.takeWhile (· != '\n') = s.reverse.takeWhile (· != '\n') := by
  rw [crlf, Breaks.write_reverse]
  induction s.reverse with
  | nil => rfl
  | cons c s ih =>
    by_cases lineFeed : c = '\n'
    · subst lineFeed
      rfl
    · rw [Breaks.write_cons _ lineFeed, List.takeWhile_cons, List.takeWhile_cons, ih]

theorem Position.after_crlf (s : List Char) : Position.after (crlf s) = Position.after s := by
  rw [Position.after, Position.after, count_lineFeed_crlf, lastLine_crlf]

theorem sublist_crlf (s : List Char) : s.Sublist (crlf s) := by
  induction s with
  | nil => exact List.Sublist.slnil
  | cons c s ih =>
    by_cases lineFeed : c = '\n'
    · subst lineFeed
      exact (ih.cons_cons '\n').cons '\r'
    · rw [crlf_cons lineFeed]
      exact ih.cons_cons c

theorem utf8ByteSize_le_crlf (input : String) :
    input.utf8ByteSize ≤ (Breaks.crlf.text input).utf8ByteSize := by
  have shorter := String.utf8Len_le_of_sublist (sublist_crlf input.toList)
  rw [← String.utf8ByteSize_ofList, ← String.utf8ByteSize_ofList, String.ofList_toList] at shorter
  exact shorter

/-! ## Scripts -/

theorem dropByteOrderMark_crlf (s : List Char) :
    dropByteOrderMark (crlf s) = crlf (dropByteOrderMark s) := by
  unfold dropByteOrderMark
  split
  · next t marked =>
    obtain ⟨r, rfl, rfl⟩ := exists_of_crlf_eq_cons (by decide) marked
    rfl
  · next unmarked =>
    split
    · next r => exact absurd rfl (unmarked (crlf r))
    · rfl

variable {options : ParseOptions} {input : String}

/-- A script that is not too large fails only if its blocks are nested too deep. -/
theorem parseText_cases (size : input.utf8ByteSize ≤ options.maxInputBytes) :
    (∃ doc, parseText options input = .ok doc) ∨
      ∃ position, parseText options input =
        .error (.nestedTooDeep options.maxDepth position options.filename) := by
  simp only [parseText, if_neg (Nat.not_lt.2 size)]
  split
  · exact .inl ⟨_, rfl⟩
  · exact .inr ⟨_, rfl⟩

/-- Both scripts fail at the same position, or neither does, and then the document with carriage
returns is made from the other one. -/
theorem parseText_crlf (noReturn : '\r' ∉ input.toList)
    (plain : joinsLines options.maxDepth input = false)
    (size : (Breaks.crlf.text input).utf8ByteSize ≤ options.maxInputBytes) :
    parseText options (Breaks.crlf.text input) = (parseText options input).map Document.crlf := by
  have size' := (utf8ByteSize_le_crlf input).trans size
  have text : dropByteOrderMark (Breaks.crlf.text input).toList =
      crlf (dropByteOrderMark input.toList) := by
    rw [Breaks.toList_text]
    exact dropByteOrderMark_crlf input.toList
  have noReturn' : '\r' ∉ margin (dropByteOrderMark input.toList) := fun found =>
    noReturn ((dropByteOrderMark_suffix _).mem ((margin_suffix _).mem found))
  have run : readScope ⟨options.maxDepth, 0⟩ .script (crlf (dropByteOrderMark input.toList)) =
      (readScope ⟨options.maxDepth, 0⟩ .script (dropByteOrderMark input.toList)).crlf := by
    rw [readScope, readScope, margin_crlf]
    exact read_crlf noReturn' plain
  obtain ⟨before, whole⟩ := (rest_suffix_of_read ⟨options.maxDepth, 0⟩ (State.start .script)
    _).trans (margin_suffix (dropByteOrderMark input.toList))
  rw [← readScope] at whole
  simp only [parseText, if_neg (Nat.not_lt.2 size), if_neg (Nat.not_lt.2 size'), text, run]
  cases left : readScope ⟨options.maxDepth, 0⟩ .script (dropByteOrderMark input.toList) with
  | closed doc rest => rfl
  | tooDeep rest =>
    rw [left] at whole
    have whole : before ++ rest = dropByteOrderMark input.toList := whole
    simp only [Reading.crlf, ← whole, crlf_append, take_length_sub, Position.after_crlf]
    rfl

/-- The same document, or nested too deep in the same line. -/
inductive SameOutcome : Except ParseError Document → Except ParseError Document → Prop where
  | document (doc : Document) : SameOutcome (.ok doc) (.ok doc)
  | tooDeep (limit : Nat) {position position' : Position} (line : position.line = position'.line)
      (filename : Option String) :
    SameOutcome (.error (.nestedTooDeep limit position filename))
      (.error (.nestedTooDeep limit position' filename))

theorem sameOutcome_ok_iff {doc doc' : Document} :
    SameOutcome (.ok doc) (.ok doc') ↔ doc' = doc := by
  constructor
  · rintro ⟨⟩
    rfl
  · rintro rfl
    exact .document doc'

/-- A script with carriage returns before its line feeds comes to the same outcome as the script
with line feeds alone, unless a key or a text of its document runs over several lines.  This is so
for every script in which no literal that is passed over joins lines. -/
theorem sameOutcome_crlf_iff (options : ParseOptions) (input : String)
    (noReturn : '\r' ∉ input.toList) (plain : joinsLines options.maxDepth input = false)
    (size : (Breaks.crlf.text input).utf8ByteSize ≤ options.maxInputBytes) :
    parseText options (Breaks.crlf.text input) = (parseText options input).map Document.crlf ∧
      (SameOutcome (parseText options input) (parseText options (Breaks.crlf.text input)) ↔
        ∀ doc, parseText options input = .ok doc → doc.isOneLine = true) := by
  have same := parseText_crlf noReturn plain size
  refine ⟨same, ?_⟩
  rw [same]
  rcases parseText_cases ((utf8ByteSize_le_crlf input).trans size) with
    ⟨doc, ok⟩ | ⟨position, fails⟩
  · rw [ok, Except.map, sameOutcome_ok_iff, Document.crlf_eq_self_iff]
    exact ⟨fun oneLine doc' same => by cases same; exact oneLine, fun oneLine => oneLine doc rfl⟩
  · rw [fails]
    exact ⟨fun _ doc same => (by cases same), fun _ => .tooDeep _ rfl _⟩

/-- A list and a declaration over several lines, and a list with an item that is. -/
theorem sameOutcome_crlf_samples :
    SameOutcome
        (parseText ⟨2, 256, none⟩ "k [a,\nb]\ndependencies \x7b\napi('g:n:1') \x7b\n\x7d\n\x7d")
        (parseText ⟨2, 256, none⟩ (Breaks.crlf.text
          "k [a,\nb]\ndependencies \x7b\napi('g:n:1') \x7b\n\x7d\n\x7d")) ∧
      ¬ SameOutcome (parseText ⟨2, 256, none⟩ "k [a\nb]")
        (parseText ⟨2, 256, none⟩ (Breaks.crlf.text "k [a\nb]")) := by
  constructor
  · have run : parseText ⟨2, 256, none⟩
        "k [a,\nb]\ndependencies \x7b\napi('g:n:1') \x7b\n\x7d\n\x7d" =
          .ok [("k", .sequence [.text "a", .text "b"]),
            ("dependencies", .dependencies [⟨"g", "n", "1", "api", []⟩])] := by
      with_unfolding_all rfl
    refine (sameOutcome_crlf_iff _ _ (by decide) (joinsLines_eq_false (by decide))
      (by decide)).2.2 ?_
    rw [run]
    rintro doc ⟨⟩
    decide
  · have run : parseText ⟨2, 256, none⟩ "k [a\nb]" =
        .ok [("k", .sequence [.text "a\nb"])] := by with_unfolding_all rfl
    rw [(sameOutcome_crlf_iff _ _ (by decide) (joinsLines_eq_false (by decide)) (by decide)).2]
    intro oneLine
    exact absurd (oneLine _ run) (by decide)

/-- An item of a list, a call that is the key of a block and the name of a dependency keep the line
break that is written in them. -/
theorem crlf_changes_document :
    (parseText ⟨2, 64, none⟩ "k [a\nb]" = .ok [("k", .sequence [.text "a\nb"])] ∧
      parseText ⟨2, 64, none⟩ (Breaks.crlf.text "k [a\nb]") =
        .ok [("k", .sequence [.text "a\r\nb"])]) ∧
    (parseText ⟨2, 64, none⟩ "f(a\nb) \x7b \x7d" = .ok [("f(a\nb)", .document [])] ∧
      parseText ⟨2, 64, none⟩ (Breaks.crlf.text "f(a\nb) \x7b \x7d") =
        .ok [("f(a\r\nb)", .document [])]) ∧
    parseText ⟨2, 64, none⟩ "dependencies \x7b\napi project(\n)\n\x7d" =
        .ok [("dependencies", .dependencies [⟨"", "project(\n)", "", "api", []⟩])] ∧
      parseText ⟨2, 64, none⟩ (Breaks.crlf.text "dependencies \x7b\napi project(\n)\n\x7d") =
        .ok [("dependencies", .dependencies [⟨"", "project(\n\n)", "", "api", []⟩])] := by
  have withReturns : ∀ {input : String} {doc : Document},
      '\r' ∉ input.toList → '\\' ∉ input.toList → (Breaks.crlf.text input).utf8ByteSize ≤ 64 →
        parseText ⟨2, 64, none⟩ input = .ok doc →
          parseText ⟨2, 64, none⟩ (Breaks.crlf.text input) = .ok doc.crlf := by
    intro input doc noReturn noBackslash size run
    rw [parseText_crlf noReturn (joinsLines_eq_false noBackslash) size, run, Except.map]
  refine ⟨?_, ?_, ?_⟩
  · have list : parseText ⟨2, 64, none⟩ "k [a\nb]" = .ok [("k", .sequence [.text "a\nb"])] := by
      with_unfolding_all rfl
    exact ⟨list, withReturns (by decide) (by decide) (by decide) list⟩
  · have letter : step ⟨2, 0⟩ (State.start .script) 'f' "(a\nb) \x7b \x7d".toList =
        .next ⟨.script, [], .key "f", []⟩ "(a\nb) \x7b \x7d".toList := by with_unfolding_all rfl
    have call : step ⟨2, 0⟩ ⟨.script, [], .key "f", []⟩ '(' "a\nb) \x7b \x7d".toList =
        .next ⟨.script, [], .key "f(a\nb)", []⟩ "\x7b \x7d".toList := by with_unfolding_all rfl
    have run : readScope ⟨2, 0⟩ .script "f(a\nb) \x7b \x7d".toList =
        .closed [("f(a\nb)", .document [])] [] := by
      refine (read_of_next letter).trans ((read_of_next call).trans ?_)
      with_unfolding_all rfl
    have block : parseText ⟨2, 64, none⟩ "f(a\nb) \x7b \x7d" = .ok [("f(a\nb)", .document [])] :=
      parseText_of_closed (by decide) run
    exact ⟨block, withReturns (by decide) (by decide) (by decide) block⟩
  · have name : parseText ⟨2, 64, none⟩ "dependencies \x7b\napi project(\n)\n\x7d" =
        .ok [("dependencies", .dependencies [⟨"", "project(\n)", "", "api", []⟩])] := by
      with_unfolding_all rfl
    exact ⟨name, withReturns (by decide) (by decide) (by decide) name⟩

end BuildScript
