import BuildScript.Proofs.Blocks
import BuildScript.Proofs.Dependencies.Reading
import BuildScript.Proofs.Repositories.Syntax

/-!
# Repositories blocks give their entries

Reading the lines of a repositories block stores each entry under its key, and the block has the
entries of its lines, grouped by key.
-/

namespace BuildScript.Repositories

open Text Grammar
open Dependencies (Filler margin_filler)

variable {nesting : Nesting} {doc : Document} {outer : List Frame}

/-! ## Names -/

/-- Where calls count, a parenthesis is a character of the key unless it stands behind an `if`. -/
theorem read_call_word {kind : ScopeKind} (keeps : kind.keepsCalls = true) (token : String)
    {word : List Char} (h : ∀ c ∈ word, endsWord c = false)
    (notTest : ¬ ['i', 'f', '('] <+: token.toList ++ word) (rest : List Char) :
    read nesting ⟨kind, doc, .key token, outer⟩ (word ++ rest) =
      read nesting ⟨kind, doc, .key (token ++ String.ofList word), outer⟩ rest := by
  induction word generalizing token with
  | nil => simp
  | cons c word ih =>
    have goesOn := h c (by simp)
    have inValue : endsValue c = false :=
      endsValue_eq_false_iff.2 (endsWord_eq_false_iff.1 goesOn).2
    have taken : step nesting ⟨kind, doc, .key token, outer⟩ c (word ++ rest) =
        .next ⟨kind, doc, .key (token.push c), outer⟩ (word ++ rest) := by
      rw [step_key token inValue]
      by_cases paren : c = '('
      · subst paren
        have notIf : token ≠ "if" := by
          rintro rfl
          exact notTest ⟨word, rfl⟩
        simp [keyStep, notIf, keeps]
      · exact keyStep_of_endsWord goesOn paren _
    have more : ¬ ['i', 'f', '('] <+: (token.push c).toList ++ word := by
      simpa using notTest
    rw [List.cons_append, read_of_next taken,
      ih (token.push c) (fun d hd => h d (by simp [hd])) more, push_append_ofList]

theorem Name.name_ne_empty (name : Name) : name.name ≠ "" := ofList_ne_empty name.nonempty

theorem Name.name_ne_keyword (name : Name) :
    name.name ≠ "if" ∧ name.name ≠ "else" ∧ name.name ≠ "def" := by
  simpa [keywords, Name.name] using name.notKeyword

theorem read_name (indent : Indent) (name : Name) {rest : List Char} (h : EndOfKey rest) :
    read nesting ⟨.repositories, doc, .key "", outer⟩ (margin (indent.1 ++ (name.chars ++ rest))) =
      read nesting ⟨.repositories, doc, .key name.name, outer⟩ rest := by
  have start : margin (name.chars ++ rest) = name.chars ++ rest :=
    margin_word name.nonempty name.inWord name.notLineComment name.notBlockComment h.noComment
  rw [margin_append_of_isIndent indent.2, start,
    read_call_word rfl "" name.inWord (by simpa using name.notTest)]
  simp [Name.name]

theorem read_name_separator (name : Name) (separator : Separator) (rest : List Char) :
    read nesting ⟨.repositories, doc, .key name.name, outer⟩ (separator.chars ++ rest) =
      read nesting ⟨.repositories, doc, .value name.name "", outer⟩ rest :=
  read_word_separator name.name_ne_empty name.notKeyword separator rest

/-- How far a line is read behind its name and the separators that follow it. -/
def Name.line (name : Name) (separators : Separators) : Line :=
  if separators.1 = [] then .key name.name else .value name.name ""

theorem read_name_separators (name : Name) (separators : Separators) (rest : List Char) :
    read nesting ⟨.repositories, doc, .key name.name, outer⟩ (separators.1 ++ rest) =
      read nesting ⟨.repositories, doc, name.line separators, outer⟩ rest := by
  unfold Name.line
  split
  · next empty => rw [empty]; rfl
  · next nonempty => exact read_name_separator name ⟨_, nonempty, separators.2⟩ rest

theorem Name.blockKey?_line (name : Name) (separators : Separators) :
    (name.line separators).blockKey? = some name.name := by
  unfold Name.line
  split
  · simp [Line.blockKey?, name.name_ne_keyword]
  · rfl

theorem classify_nil : classify [] = .text "" := by
  simp [classify, trim, trimStart, trimEnd, unquote]

/-- A name without a value is stored with an empty text. -/
theorem Name.store_line (name : Name) (separators : Separators) :
    (name.line separators).store .repositories doc = doc.add name.name (.text "") := by
  unfold Name.line
  split <;>
    simp [Line.store, ScopeKind.storeSetting, ScopeKind.keepsCalls, name.name_ne_empty,
      classify_nil]

/-! ## Entries -/

theorem isEmptyText_document (doc : Document) : (Value.document doc).isEmptyText = false := rfl

theorem classify_ne_sequence (raw : List Char) (items : List Value) :
    classify raw ≠ .sequence items := by
  simp only [classify]
  split
  · simp
  · split <;> simp

/-- What a line stands for comes back from the value that it stores. -/
theorem Entry.isKept (entry : Entry nesting) : entry.meaning.IsKept := by
  cases entry with
  | bare name separators => trivial
  | value name separator content notEmpty => exact ⟨notEmpty, classify_ne_sequence content.chars⟩
  | block name notDependencies notRepositories separators body tail =>
    exact ⟨isEmptyText_document body.doc, fun items same => by cases same⟩

theorem endOfKey_brace (rest : List Char) : EndOfKey ('{' :: rest) := by
  intro c hc
  cases hc
  decide

theorem endOfKey_lineBreak (lineBreak : LineBreak) (rest : List Char) :
    EndOfKey (lineBreak.text ++ rest) :=
  (EndOfLine.lineBreak false lineBreak rest).endOfKey

/-- The text of a block is read as a scope of its own, and its document is stored under the name. -/
theorem read_block {limit depth : Nat} (body : BlockText ⟨limit, depth + outer.length⟩)
    (name : String) (named : name ≠ "") (rest : List Char) :
    read ⟨limit, depth⟩ ⟨.repository, [], .key "", ⟨name, .repositories, doc⟩ :: outer⟩
        (margin (body.chars ++ '}' :: rest)) =
      read ⟨limit, depth⟩ ⟨.repositories, doc.add name (.document body.doc), .done, outer⟩
        rest := by
  let frame : Frame := ⟨name, .repositories, doc⟩
  have stops := stops_of_readScope (List.cons_ne_nil _ _) body.closes rest
  have resumed : frame.resumed outer (State.start .repository).scopeKind body.doc =
      ⟨.repositories, doc.add name (.document body.doc), .done, outer⟩ := by
    simp [frame, Frame.resumed, State.scopeKind, State.start, ScopeKind.value,
      ScopeKind.storeBlock, named]
  have inside := read_inside limit depth frame outer (State.start .repository)
    (margin (body.chars ++ '}' :: rest))
  rw [read_of_stops stops, Reading.inside, resumed] at inside
  exact inside

variable {limit depth : Nat}

/-- A line with an entry stores it under its key. -/
theorem read_entry (indent : Indent) (entry : Entry ⟨limit, depth + outer.length⟩)
    (lineBreak : LineBreak) (rest : List Char) :
    read ⟨limit, depth⟩ ⟨.repositories, doc, .key "", outer⟩
        (margin (indent.1 ++ (entry.text ++ (lineBreak.text ++ rest)))) =
      read ⟨limit, depth⟩
        ⟨.repositories, doc.add entry.meaning.key entry.meaning.value, .key "", outer⟩
        (margin rest) := by
  cases entry with
  | bare name separators =>
    rw [Entry.text, List.append_assoc,
      read_name indent name (endOfKey_separators separators (endOfKey_lineBreak lineBreak rest)),
      read_name_separators, read_lineBreak_text, name.store_line]
    rfl
  | value name separator content notEmpty =>
    simp only [Entry.text, List.append_assoc]
    rw [read_name indent name (separator.endOfKey _), read_name_separator, read_valueText,
      read_lineBreak_text, store_valueText name.name_ne_empty]
    rfl
  | block name notDependencies notRepositories separators body tail =>
    have inner : ScopeKind.repositories.ofBlock name.name = .repository := by
      simp [ScopeKind.ofBlock, notRepositories]
    simp only [Entry.text, List.append_assoc, List.cons_append]
    rw [read_name indent name (endOfKey_separators separators (endOfKey_brace _)),
      read_name_separators,
      read_opening (name.blockKey?_line separators) notDependencies body.room, inner,
      read_block body name.name name.name_ne_empty, read_tail, read_lineBreak_text]
    rfl

/-! ## Bodies -/

theorem read_line (line : BodyLine ⟨limit, depth + outer.length⟩) (lineBreak : LineBreak)
    (rest : List Char) :
    read ⟨limit, depth⟩ ⟨.repositories, doc, .key "", outer⟩
        (margin (line.text ++ (lineBreak.text ++ rest))) =
      read ⟨limit, depth⟩ ⟨.repositories, doc.addEntries line.entries, .key "", outer⟩
        (margin rest) := by
  cases line with
  | filler line =>
    rw [BodyLine.text, margin_filler line (EndOfLine.lineBreak _ lineBreak rest),
      read_lineBreak_text]
    simp [Line.store, ScopeKind.storeSetting, BodyLine.entries, Document.addEntries]
  | entry indent written =>
    rw [BodyLine.text, List.append_assoc, read_entry]
    rfl

/-- The lines of a body add their entries one after the other. -/
theorem read_body (outer : List Frame) (body : Body ⟨limit, depth + outer.length⟩)
    (rest : List Char) :
    read ⟨limit, depth⟩ ⟨.repositories, doc, .key "", outer⟩ (margin (body.text ++ rest)) =
      read ⟨limit, depth⟩ ⟨.repositories, doc.addEntries body.entries, .key "", outer⟩
        (margin rest) := by
  induction body generalizing doc with
  | nil => rfl
  | cons first body ih =>
    obtain ⟨line, lineBreak⟩ := first
    have text : Body.text ((line, lineBreak) :: body) ++ rest =
        line.text ++ (lineBreak.text ++ (Body.text body ++ rest)) := by simp [Body.text]
    have entries : Body.entries ((line, lineBreak) :: body) =
        line.entries ++ Body.entries body := rfl
    rw [text, read_line, ih, entries, Document.addEntries_append]

theorem Body.isKept (body : Body nesting) : ∀ e ∈ body.entries, e.IsKept := by
  intro e member
  obtain ⟨⟨line, lineBreak⟩, -, member⟩ := List.mem_flatMap.1 member
  cases line with
  | filler line => cases member
  | entry indent written => exact List.mem_singleton.1 member ▸ written.isKept

theorem margin_closing (closing : Indent) (rest : List Char) :
    margin (closing.1 ++ '}' :: rest) = '}' :: rest := by
  rw [margin_append_of_isIndent closing.2]
  exact margin_cons_of_not (by decide) (by decide) rest

/-- What has gathered in the body becomes the entries, grouped by key. -/
theorem value_addEntries (body : Body nesting) :
    ScopeKind.repositories.value (Document.addEntries body.entries []) =
      .repositories (grouped body.entries) := by
  rw [ScopeKind.value, Document.repositoryEntries_addEntries body.isKept]

/-- A repositories block gives one entry for each line with a name, a value or a block.  The entries
of one key stand next to each other, in the order in which they are written, and the keys stand in
the order in which they first appear.  That holds when the body is read as a scope of its own, and
when it is read as a block of any scope. -/
theorem read_repositories (nesting : Nesting) (outer : List Frame)
    (body : Body ⟨nesting.limit, nesting.depth + outer.length + 1⟩) (closing : Indent)
    (rest : List Char) :
    (grouped body.entries).Perm body.entries ∧
      (∃ doc, readScope ⟨nesting.limit, nesting.depth + outer.length + 1⟩ .repositories
          (body.text ++ (closing.1 ++ '}' :: rest)) = .closed doc rest ∧
        ScopeKind.repositories.value doc = .repositories (grouped body.entries)) ∧
      ∀ (kind : ScopeKind) (doc : Document) (line : Line),
        line.blockKey? = some "repositories" →
        nesting.depth + outer.length < nesting.limit →
        read nesting ⟨kind, doc, line, outer⟩
            ('{' :: (body.text ++ (closing.1 ++ '}' :: rest))) =
          read nesting ⟨kind, kind.storeBlock "repositories"
            (.repositories (grouped body.entries)) doc, .done, outer⟩ rest := by
  refine ⟨grouped_perm body.entries, ⟨Document.addEntries body.entries [], ?_,
    value_addEntries body⟩, fun kind doc line opens room => ?_⟩
  · rw [readScope]
    refine (read_body [] body (closing.1 ++ '}' :: rest)).trans ?_
    rw [margin_closing]
    exact read_of_closed rfl
  · have inner : kind.ofBlock "repositories" = .repositories := if_pos rfl
    rw [read_opening opens (by decide) room, inner]
    let frame : Frame := ⟨"repositories", kind, doc⟩
    refine (read_body (frame :: outer) body (closing.1 ++ '}' :: rest)).trans ?_
    rw [margin_closing, read_closing, ← value_addEntries body]
    rfl

/-- Calls and blocks of one name with other entries, a comment and a blank line between them. -/
def sample : Body ⟨4, 1⟩ :=
  let call : Name :=
    ⟨"jcenter()".toList, by decide, by decide, by decide, by decide, by decide, by decide⟩
  let maven : Name :=
    ⟨"maven".toList, by decide, by decide, by decide, by decide, by decide, by decide⟩
  let blank : Indent := ⟨[' '], isIndent_of_mem_space⟩
  let space : Separators := ⟨[' '], isDelimiter_of_mem_space⟩
  let quoted : ValueText := ⟨"'b'".toList, by decide, by decide, by rintro c ⟨⟩; decide⟩
  [(.entry blank (.bare call Run.none), .lineFeed),
   (.entry blank (.block maven (by decide) (by decide) space
     ⟨" url 'a' ".toList, [("url", .text "a")], by decide, by with_unfolding_all rfl⟩ Run.none),
    .both),
   (.filler (.comment blank ⟨" \x7d".toList, by decide⟩), .lineFeed),
   (.entry blank (.bare call space), .lineFeed),
   (.filler (.blank blank), .lineFeed),
   (.entry blank (.value maven ⟨" = ".toList, by decide, by decide⟩ quoted (by decide)),
     .lineFeed),
   (.entry blank (.block maven (by decide) (by decide) Run.none
     ⟨[], [], by decide, by with_unfolding_all rfl⟩ ⟨[' '], by decide⟩), .lineFeed)]

theorem read_repositories_sample :
    read ⟨4, 0⟩ ⟨.script, [], .key "repositories", []⟩
        ("\x7b jcenter()\n maven \x7b url 'a' \x7d\r\n // \x7d\n jcenter() \n \n".toList ++
          " maven = 'b'\n maven\x7b\x7d \n\x7d rest".toList) =
      .closed [("repositories", .repositories [.unknown "jcenter()", .unknown "jcenter()",
        .named "maven" (.document [("url", .text "a")]), .named "maven" (.text "b"),
        .named "maven" (.document [])])] [] := by
  have gathered := (read_repositories ⟨4, 0⟩ [] sample ⟨[], by decide⟩ " rest".toList).2.2
    .script [] (.key "repositories") rfl (by decide)
  refine gathered.trans ?_
  with_unfolding_all rfl

end BuildScript.Repositories
