import BuildScript.Proofs.Repositories.Keys
import BuildScript.Proofs.Repositories.Reading
import BuildScript.Proofs.Skipped.Brackets

/-!
# Calls in repositories blocks

A call at the start of a line of a repositories block is read like any other word.  It is an entry as
it is written if its arguments hold no delimiter, and only then.  In a script a call in front of a
block is taken whole.
-/

namespace BuildScript

namespace Repositories

open Text Grammar

/-! ## Calls -/

theorem not_isNameChar_of_mem : ∀ c ∈ [' ', '\t', '=', '\n', '\r', '{', '}', '(', '/'],
    isNameChar c = false := by decide

theorem of_isNameChar {c : Char} (h : isNameChar c = true) :
    endsWord c = false ∧ c ≠ '(' ∧ c ≠ '/' := by
  have other : c ∉ [' ', '\t', '=', '\n', '\r', '{', '}', '(', '/'] :=
    fun member => by simp [not_isNameChar_of_mem c member] at h
  simpa [endsWord, isDelimiter, isIndent, isLineBreak, and_assoc] using other

/-- A name with arguments in parentheses, on one line and without braces. -/
structure Call where
  name : List Char
  nonempty : name ≠ []
  inName : ∀ c ∈ name, isNameChar c = true
  notKeyword : String.ofList name ∉ keywords
  args : Test
  oneLine : ∀ c ∈ args.chars, endsValue c = false

namespace Call

variable (call : Call)

def chars : List Char := call.name ++ call.args.text

/-- The call as it is written. -/
def key : String := String.ofList call.chars

def IsOneWord : Prop := ∀ c ∈ call.args.chars, isDelimiter c = false

instance : Decidable call.IsOneWord := decidableForallMemText call.args.chars

theorem paren_mem_chars : '(' ∈ call.chars := by
  simp [chars, Pair.Inner.text, Pair.opening]

theorem key_ne {word : String} (plain : '(' ∉ word.toList) : call.key ≠ word := by
  rintro rfl
  exact plain (by simpa [key] using call.paren_mem_chars)

theorem key_notMem_keywords : call.key ∉ keywords := by
  have plain : ∀ word ∈ keywords, '(' ∉ word.toList := by decide
  exact fun member => call.key_ne (plain _ member) rfl

theorem key_ne_empty : call.key ≠ "" := call.key_ne (by decide)

theorem blockKey?_key : (Line.key call.key).blockKey? = some call.key := by
  have other : call.key ≠ "else" := call.key_ne (by decide)
  simp [Line.blockKey?, other]

theorem not_comment {second : Char} (rest : List Char) : ¬ ['/', second] <+: call.name ++ rest := by
  intro start
  obtain ⟨first, others, same⟩ := List.exists_cons_of_ne_nil call.nonempty
  have slash : first = '/' := by
    rw [same, List.cons_append] at start
    exact (List.cons_prefix_cons.1 start).1.symm
  exact (of_isNameChar (call.inName first (by simp [same]))).2.2 slash

/-- The name is no `if`, so the call is no test. -/
theorem not_test : ¬ ['i', 'f', '('] <+: call.chars := by
  rintro ⟨rest, same⟩
  have parens : ∀ c ∈ call.name, (c != '(') = true := fun c hc =>
    by simpa using (of_isNameChar (call.inName c hc)).2.1
  have name : call.name = ['i', 'f'] := by
    have cut : call.chars.takeWhile (· != '(') = call.name := by
      rw [chars, List.takeWhile_append_of_pos parens, Pair.Inner.text]
      simp [Pair.opening]
    rw [← cut, ← same]
    rfl
  exact call.notKeyword (by rw [name]; decide)

/-- A call without delimiters is the name of an entry. -/
def toName (whole : call.IsOneWord) : Name where
  chars := call.chars
  nonempty := List.ne_nil_of_mem call.paren_mem_chars
  inWord := by
    intro c hc
    simp only [chars, Pair.Inner.text, Pair.opening, Pair.closing, List.mem_append, List.mem_cons,
      List.not_mem_nil, or_false] at hc
    rcases hc with name | rfl | args | rfl
    · exact (of_isNameChar (call.inName c name)).1
    · decide
    · exact endsWord_eq_false_iff.2 ⟨whole c args, endsValue_eq_false_iff.1 (call.oneLine c args)⟩
    · decide
  notKeyword := call.key_notMem_keywords
  notTest := call.not_test
  notLineComment := call.not_comment call.args.text
  notBlockComment := call.not_comment call.args.text

/-- A call as the key of an entry is one word. -/
theorem isOneWord_of_undelimited (h : Undelimited call.key) : call.IsOneWord := by
  intro c hc
  refine h c ?_
  simp [key, chars, Pair.Inner.text, hc]

/-! ## Calls in a script -/

/-- In front of a `{` a call is taken as it is written, with all its arguments. -/
theorem read_before_brace {nesting : Nesting} {doc : Document} {outer : List Frame}
    (indent blanks : Indent) (rest : List Char) :
    read nesting ⟨.script, doc, .key "", outer⟩
        (margin (indent.1 ++ (call.chars ++ (blanks.1 ++ '{' :: rest)))) =
      read nesting ⟨.script, doc, .key call.key, outer⟩ ('{' :: rest) := by
  have inWord : ∀ c ∈ call.name, endsWord c = false ∧ c ≠ '(' := fun c hc =>
    ⟨(of_isNameChar (call.inName c hc)).1, (of_isNameChar (call.inName c hc)).2.1⟩
  have start : margin (call.name ++ (call.args.text ++ (blanks.1 ++ '{' :: rest))) =
      call.name ++ (call.args.text ++ (blanks.1 ++ '{' :: rest)) :=
    margin_word call.nonempty (fun c hc => (inWord c hc).1)
      (by simpa using call.not_comment []) (by simpa using call.not_comment [])
      (by rintro c ⟨⟩; decide)
  have skipped : skipCall ([] ++ (call.args.text ++ (blanks.1 ++ '{' :: rest))) =
      blanks.1 ++ '{' :: rest := skipCall_text (by simp) call.args _
  rw [List.nil_append] at skipped
  have opening : skipIndent (blanks.1 ++ '{' :: rest) = '{' :: rest := by
    rw [skipIndent, List.dropWhile_append_of_pos blanks.2]
    rfl
  have notIf : String.ofList call.name ≠ "if" := fun same =>
    call.notKeyword (by simp [same, keywords])
  have taken : step nesting ⟨.script, doc, .key (String.ofList call.name), outer⟩ '('
        (call.args.chars ++ [')'] ++ (blanks.1 ++ '{' :: rest)) =
      .next ⟨.script, doc, .key call.key, outer⟩ ('{' :: rest) := by
    have whole : '(' :: (call.args.chars ++ [')'] ++ (blanks.1 ++ '{' :: rest)) =
        call.args.text ++ (blanks.1 ++ '{' :: rest) := rfl
    rw [step_key _ (by decide), keyStep, if_pos (by rfl), if_neg notIf,
      if_neg (by simp [ScopeKind.keepsCalls]), callStep, whole, skipped, opening, take_length_sub, key,
      chars, String.ofList_append]
    rfl
  have text : call.chars ++ (blanks.1 ++ '{' :: rest) =
      call.name ++ (call.args.text ++ (blanks.1 ++ '{' :: rest)) := by simp [chars]
  rw [margin_append_of_isIndent indent.2, text, start, read_word "" inWord, String.empty_append]
  exact read_of_next taken

end Call

/-! ## Calls in a repositories block -/

/-- A repositories block with this text, up to its `}`, has these entries, in some order. -/
def Gives (nesting : Nesting) (s rest : List Char) (entries : List (Repository Value)) : Prop :=
  ∃ doc, readScope ⟨nesting.limit, nesting.depth + 1⟩ .repositories s = .closed doc rest ∧
    (repositoryEntries doc).Perm entries

variable {nesting : Nesting}

theorem gives_body (body : Body ⟨nesting.limit, nesting.depth + 1⟩) (closing : Indent)
    (rest : List Char) :
    Gives nesting (body.text ++ (closing.1 ++ '}' :: rest)) rest body.entries := by
  obtain ⟨perm, ⟨doc, run, value⟩, -⟩ := read_repositories nesting [] body closing rest
  have same : repositoryEntries doc = grouped body.entries := Value.repositories.inj value
  exact ⟨doc, run, same ▸ perm⟩

/-- No entry has a delimiter in its name. -/
theorem Gives.undelimited {s rest : List Char} {entries : List (Repository Value)}
    (h : Gives nesting s rest entries) {entry : Repository Value} (member : entry ∈ entries) :
    Undelimited entry.key := by
  obtain ⟨doc, run, perm⟩ := h
  exact keysUndelimited_read (keysUndelimited_start .repositories) run rfl entry.key
    (.inl (key_mem_keys_of_mem_entries (perm.mem_iff.2 member)))

/-- The text of a line between the other lines of a body, up to the `}` of the block. -/
def between (before : Body nesting) (line : List Char) (after : Body nesting) (closing : Indent)
    (rest : List Char) : List Char :=
  before.text ++ (line ++ (after.text ++ (closing.1 ++ '}' :: rest)))

theorem gives_between (before : Body ⟨nesting.limit, nesting.depth + 1⟩) (indent : Indent)
    (entry : Entry ⟨nesting.limit, nesting.depth + 1⟩) (lineBreak : LineBreak)
    (after : Body ⟨nesting.limit, nesting.depth + 1⟩) (closing : Indent) (rest : List Char) :
    Gives nesting
      (between before (indent.1 ++ (entry.text ++ lineBreak.text)) after closing rest) rest
      (before.entries ++ entry.meaning :: after.entries) := by
  have gives := gives_body (before ++ (.entry indent entry, lineBreak) :: after) closing rest
  have text : Body.text (before ++ (.entry indent entry, lineBreak) :: after) ++
        (closing.1 ++ '}' :: rest) =
      between before (indent.1 ++ (entry.text ++ lineBreak.text)) after closing rest := by
    simp [between, Body.text, BodyLine.text]
  have entries : Body.entries (before ++ (.entry indent entry, lineBreak) :: after) =
      before.entries ++ entry.meaning :: after.entries := by
    simp [Body.entries, BodyLine.entries]
  rwa [text, entries] at gives

/-- A call on a line of a repositories block gives one entry that is named as the call is written,
and a block behind it gives one entry of that type, exactly if the arguments hold no delimiter.  In a
script the block is stored under the call as it is written, whatever its arguments are. -/
theorem call_gives_entry_iff (nesting : Nesting) (call : Call) (indent blanks : Indent) :
    (∀ (before after : Body ⟨nesting.limit, nesting.depth + 1⟩) (lineBreak : LineBreak)
        (closing : Indent) (rest : List Char),
      (Gives nesting
          (between before (indent.1 ++ (call.chars ++ (blanks.1 ++ lineBreak.text))) after closing
            rest) rest
          (before.entries ++ .unknown call.key :: after.entries) ↔ call.IsOneWord) ∧
        ∀ (body : BlockText ⟨nesting.limit, nesting.depth + 1⟩) (tail : Tail),
          (Gives nesting
            (between before (indent.1 ++ (call.chars ++
              (blanks.1 ++ '{' :: (body.chars ++ '}' :: (tail.1 ++ lineBreak.text))))) after closing
              rest) rest
            (before.entries ++ .named call.key (.document body.doc) :: after.entries) ↔
              call.IsOneWord)) ∧
      ∀ (outer : List Frame) (doc : Document)
        (body : BlockBody ⟨nesting.limit, nesting.depth + outer.length⟩ .script call.key)
        (rest : List Char),
        read nesting ⟨.script, doc, .key "", outer⟩
            (margin (indent.1 ++ (call.chars ++
              (blanks.1 ++ '{' :: (body.chars ++ '}' :: rest))))) =
          read nesting ⟨.script, doc.joinBlock call.key body.value, .done, outer⟩ rest := by
  let separators : Separators := ⟨blanks.1, fun c hc => isDelimiter_of_isIndent (blanks.2 c hc)⟩
  refine ⟨fun before after lineBreak closing rest => ⟨⟨fun gives => ?_, fun whole => ?_⟩,
    fun body tail => ⟨fun gives => ?_, fun whole => ?_⟩⟩, fun outer doc body rest => ?_⟩
  · have member : .unknown call.key ∈ before.entries ++ .unknown call.key :: after.entries := by simp
    exact call.isOneWord_of_undelimited (gives.undelimited member)
  · have gives := gives_between before indent (.bare (call.toName whole) separators) lineBreak after
      closing rest
    rwa [Entry.text, List.append_assoc] at gives
  · have member : .named call.key (.document body.doc) ∈
        before.entries ++ .named call.key (.document body.doc) :: after.entries := by simp
    exact call.isOneWord_of_undelimited (gives.undelimited member)
  · let block : Entry ⟨nesting.limit, nesting.depth + 1⟩ :=
      .block (call.toName whole) (call.key_ne (by decide)) (call.key_ne (by decide)) separators body
        tail
    have text : block.text ++ lineBreak.text = call.chars ++
        (blanks.1 ++ '{' :: (body.chars ++ '}' :: (tail.1 ++ lineBreak.text))) := by
      simp [block, Entry.text, separators, Call.toName]
    have gives := gives_between before indent block lineBreak after closing rest
    rwa [text] at gives
  · rw [call.read_before_brace, read_blockBody call.blockKey?_key body]
    simp [ScopeKind.storeBlock, call.key_ne_empty]

/-- A call whose arguments hold a quoted parenthesis and a comma. -/
def pairCall : Call where
  name := "google".toList
  nonempty := by decide
  inName := by decide
  notKeyword := by decide
  args := ⟨"(a),')'".toList, by decide, by decide⟩
  oneLine := by decide

/-- The same call with a blank behind the comma. -/
def spacedCall : Call where
  name := "google".toList
  nonempty := by decide
  inName := by decide
  notKeyword := by decide
  args := ⟨"(a), ')'".toList, by decide, by decide⟩
  oneLine := by decide

theorem gives_pairCall_not_spacedCall :
    Gives ⟨4, 0⟩ "jcenter()\n google((a),')') \n\x7d".toList []
        [.unknown "jcenter()", .unknown "google((a),')')"] ∧
      ¬ Gives ⟨4, 0⟩ "jcenter()\n google((a), ')') \n\x7d".toList []
        [.unknown "jcenter()", .unknown "google((a), ')')"] := by
  let blank : Indent := ⟨[' '], isIndent_of_mem_space⟩
  let jcenter : Name :=
    ⟨"jcenter()".toList, by decide, by decide, by decide, by decide, by decide, by decide⟩
  let before : Body ⟨4, 1⟩ := [(.entry ⟨[], by decide⟩ (.bare jcenter Run.none), .lineFeed)]
  constructor
  · exact (((call_gives_entry_iff ⟨4, 0⟩ pairCall blank blank).1 before [] .lineFeed Run.none []).1).2
      (by decide)
  · intro gives
    have whole := (((call_gives_entry_iff ⟨4, 0⟩ spacedCall blank blank).1 before [] .lineFeed Run.none
      []).1).1 gives
    exact absurd whole (by decide)

/-- A call with a blank between its arguments is cut at the blank. -/
theorem call_is_cut_at_blank :
    ∃ entries, parseText ⟨1, 64, none⟩ "repositories \x7b\nmaven(a, b)\n\x7d" =
        .ok [("repositories", .repositories entries)] ∧
      entries = [.named "maven(a," (.text "b)")] ∧ entries ≠ [.unknown "maven(a, b)"] :=
  ⟨_, by with_unfolding_all rfl, rfl, fun same => by cases same⟩

end Repositories

end BuildScript
