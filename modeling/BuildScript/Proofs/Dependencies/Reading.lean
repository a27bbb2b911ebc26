import BuildScript.Proofs.Dependencies.Declaration
import BuildScript.Proofs.Dependencies.Statements
import BuildScript.Proofs.Grammar.Reading

/-!
# Dependencies blocks are read as they are written

Taking a block apart into its statements leaves the kept text of each of them, so reading a script of
dependencies blocks gives the dependencies that its statements declare, in their order.
-/

namespace BuildScript.Dependencies

open Text Grammar Unicode

/-! ## Statements -/

theorem inLine_of_isKeywordChar {c : Char} (h : isKeywordChar c = true) :
    inLine c = true ∧ isIndent c = false ∧ c ≠ '/' := by
  have other : ∀ d : Char, isKeywordChar d = false → c ≠ d := by
    rintro d outside rfl
    rw [h] at outside
    cases outside
  have quotes := And.intro (other '"' (by decide)) (other '\'' (by decide))
  have brackets := And.intro (other '(' (by decide)) (And.intro (other ')' (by decide))
    (And.intro (other '[' (by decide)) (And.intro (other ']' (by decide))
      (And.intro (other '\x7b' (by decide)) (other '\x7d' (by decide))))))
  have breaks := And.intro (other '\n' (by decide)) (other '\r' (by decide))
  refine ⟨?_, ?_, other '/' (by decide)⟩
  · simp [inLine, isPlain, isQuote, isBracket, isLineBreak, quotes, brackets, breaks]
  · simp [isIndent, other ' ' (by decide), other '\t' (by decide)]

theorem Kind.flat (kind : Kind) : Flat inLine kind.chars :=
  flat_of_forall fun c hc => (inLine_of_isKeywordChar (kind.inKind c hc)).1

theorem flat_inLine_of_isIndent {s : List Char} (h : ∀ c ∈ s, isIndent c = true) : Flat inLine s :=
  flat_of_forall fun c hc => inLine_of_isIndent (h c hc)

theorem margin_quoted (quoted : Quoted) (rest : List Char) :
    margin (quoted.text ++ rest) = quoted.text ++ rest := by
  have start : isIndent quoted.quote.1 = false ∧ quoted.quote.1 ≠ '/' := by
    rcases eq_of_isQuote quoted.quote.2 with same | same <;> rw [same] <;> decide
  exact margin_cons_of_not start.1 start.2 _

theorem append_ofList (s : String) (t u : List Char) :
    s ++ String.ofList t ++ String.ofList u = s ++ String.ofList (t ++ u) := by
  apply String.ext
  simp

/-- A coordinate behind a comma is kept, over the line break that may stand behind the comma. -/
theorem statements_comma (comma : Comma) (quoted : Quoted) (current : String) (rest : List Char) :
    statements 0 none current (comma.text ++ (quoted.text ++ rest)) =
      statements 0 none (current ++ String.ofList (',' :: (comma.keptBlanks ++ quoted.text))) rest := by
  obtain ⟨blanks, lineBreak⟩ := comma
  have text : Flat inLine (',' :: blanks.1) :=
    .cons (by decide) (flat_inLine_of_isIndent blanks.2)
  cases lineBreak with
  | none =>
    have shape : ',' :: (blanks.1 ++ []) = ',' :: blanks.1 := by rw [List.append_nil]
    rw [Comma.text, Comma.keptBlanks, shape, statements_flat text, statements_flat quoted.flat,
      append_ofList, List.append_nil]
    rfl
  | some layout =>
    obtain ⟨lineBreak, indent⟩ := layout
    have goesOn : GoesOn 0 (current ++ String.ofList (',' :: blanks.1)) := by
      have last : ∀ c ∈ (current.toList ++ [',']).getLast?, isBlank c = false := by
        intro c hc
        have : c = ',' := by simpa using hc.symm
        subst this
        decide
      have trimmed := trimEnd_append last fun c hc => isBlank_of_isIndent (blanks.2 c hc)
      right
      rw [String.toList_append, String.toList_ofList, ← List.singleton_append, ← List.append_assoc,
        trimmed]
      simp
    have shape : ',' :: (blanks.1 ++ (lineBreak.text ++ indent.1)) ++ (quoted.text ++ rest) =
        (',' :: blanks.1) ++ (lineBreak.text ++ (indent.1 ++ (quoted.text ++ rest))) := by simp
    rw [Comma.text, Comma.keptBlanks, shape, statements_flat text, statements_goesOn goesOn,
      margin_append_of_isIndent indent.2, margin_quoted, statements_flat quoted.flat,
      append_ofList, append_ofList]
    simp

/-- A list of coordinates is kept as a whole. -/
theorem statements_others (others : List (Comma × Quoted)) (current : String) (rest : List Char) :
    statements 0 none current
        ((others.flatMap fun (comma, quoted) => comma.text ++ quoted.text) ++ rest) =
      statements 0 none (current ++ String.ofList
        (others.flatMap fun (comma, quoted) => ',' :: (comma.keptBlanks ++ quoted.text))) rest := by
  induction others generalizing current with
  | nil => simp
  | cons entry others ih =>
    rw [List.flatMap_cons, List.flatMap_cons, List.append_assoc, List.append_assoc,
      statements_comma, ih, append_ofList]

/-- `exclude` lines are kept without their indentation. -/
theorem statements_excludes (lines : List ExcludeLine) (current : String) (rest : List Char) :
    statements 1 none current (margin (lines.flatMap ExcludeLine.text ++ rest)) =
      statements 1 none (current ++ String.ofList (keptExcludes lines)) (margin rest) := by
  induction lines generalizing current with
  | nil => simp [keptExcludes]
  | cons line lines ih =>
    have words : Flat inLine line.words :=
      (flat_of_forall (by decide)).append ((flat_inLine_of_isIndent line.gap.blanks).append
        (flat_attributesText line.first line.others))
    have begins : ∀ t, margin (line.words ++ t) = line.words ++ t := fun t =>
      margin_cons_of_not (by decide) (by decide) _
    have parts : line.text = line.indent.1 ++ (line.words ++ line.lineBreak.text) := by
      unfold ExcludeLine.text ExcludeLine.words
      rw [List.append_assoc, List.append_assoc]
    have shape : (line :: lines).flatMap ExcludeLine.text ++ rest = line.indent.1 ++ (line.words ++
        (line.lineBreak.text ++ (lines.flatMap ExcludeLine.text ++ rest))) := by
      simp [parts]
    rw [shape, margin_append_of_isIndent line.indent.2, begins, statements_flat words,
      statements_goesOn (.inl (by decide)), ih, append_ofList, append_ofList]
    simp [keptExcludes]

/-- A statement is read to its end, and what is kept of it is its kept text. -/
theorem statements_text (statement : Statement) (rest : List Char) :
    statements 0 none "" (statement.text ++ rest) =
      statements 0 none (String.ofList statement.kept) rest := by
  have start : ∀ t : List Char, "" ++ String.ofList t = String.ofList t := fun t => by simp
  cases statement with
  | listed kind gap first others =>
    have flat : Flat inLine (kind.chars ++ (gap.chars ++ first.text)) :=
      kind.flat.append ((flat_inLine_of_isIndent gap.blanks).append first.flat)
    have shape : Statement.text (.listed kind gap first others) ++ rest =
        (kind.chars ++ (gap.chars ++ first.text)) ++
          ((others.flatMap fun (comma, quoted) => comma.text ++ quoted.text) ++ rest) := by
      simp [Statement.text]
    rw [shape, statements_flat flat, start, statements_others]
    congr 1
    apply String.ext
    simp [Statement.kept, Statement.kind, Statement.keptArguments]
  | call kind coordinate =>
    have shape : Statement.text (.call kind coordinate) ++ rest =
        kind.chars ++ '(' :: (coordinate.text ++ ')' :: rest) := by
      simp [Statement.text]
    rw [shape, statements_flat kind.flat, statements_opening (by decide),
      statements_flat coordinate.flat, statements_closing (by decide)]
    congr 1
    apply String.ext
    simp [Statement.kept, Statement.kind, Statement.keptArguments]
  | named kind gap group name version =>
    obtain ⟨first, others, text⟩ := exists_namedText group name version
    have flat : Flat inLine (kind.chars ++ (gap.chars ++ namedText group name version)) :=
      kind.flat.append ((flat_inLine_of_isIndent gap.blanks).append
        (text ▸ flat_attributesText first others))
    rw [Statement.text, statements_flat flat, start]
    rfl
  | excluding kind coordinate blanks lineBreak first others indent =>
    have begins : margin (indent.1 ++ '\x7d' :: rest) = '\x7d' :: rest := by
      rw [margin_append_of_isIndent indent.2]
      exact margin_cons_of_not (by decide) (by decide) rest
    have shape : Statement.text (.excluding kind coordinate blanks lineBreak first others indent) ++
        rest = kind.chars ++ '(' :: (coordinate.text ++ ')' :: (blanks.1 ++ '\x7b' ::
          (lineBreak.text ++ ((first :: others).flatMap ExcludeLine.text ++
            (indent.1 ++ '\x7d' :: rest))))) := by
      simp [Statement.text]
    rw [shape, statements_flat kind.flat, statements_opening (by decide),
      statements_flat coordinate.flat, statements_closing (by decide),
      statements_flat (flat_inLine_of_isIndent blanks.2), statements_opening (by decide),
      statements_goesOn (.inl (by decide)), statements_excludes, begins,
      statements_closing (by decide)]
    congr 1
    apply String.ext
    simp [Statement.kept, Statement.kind, Statement.keptArguments]

/-! ## Lines of a block -/

/-- What is kept of a statement ends in a quote, a parenthesis or a brace. -/
theorem endsIn_kept (statement : Statement) :
    EndsIn (fun c => isBlank c = false ∧ c ≠ ',') statement.kept := by
  have quote : ∀ c, isQuote c = true → isBlank c = false ∧ c ≠ ',' := by
    intro c h
    rcases eq_of_isQuote h with rfl | rfl <;> decide
  refine EndsIn.append ?_ statement.kind.chars
  cases statement with
  | listed kind gap first others =>
    exact ((endsIn_listText first others).mono quote).append gap.chars
  | call kind coordinate => exact endsIn_concat (by decide) ('(' :: coordinate.text)
  | named kind gap group name version =>
    obtain ⟨first, others, text⟩ := exists_namedText group name version
    rw [Statement.keptArguments, text]
    exact ((endsIn_attributesText first others).mono quote).append gap.chars
  | excluding kind coordinate blanks lineBreak first others indent =>
    have brace : EndsIn (fun c => isBlank c = false ∧ c ≠ ',')
        (keptBreak lineBreak ++ keptExcludes (first :: others) ++ ['\x7d']) :=
      endsIn_concat (by decide) _
    have shape : Statement.keptArguments
        (.excluding kind coordinate blanks lineBreak first others indent) =
        ('(' :: (coordinate.text ++ ')' :: (blanks.1 ++ ['\x7b']))) ++
          (keptBreak lineBreak ++ keptExcludes (first :: others) ++ ['\x7d']) := by
      simp [Statement.keptArguments]
    rw [shape]
    exact brace.append _

/-- A statement begins where its line begins. -/
theorem margin_kind (kind : Kind) (rest : List Char) :
    margin (kind.chars ++ rest) = kind.chars ++ rest := by
  obtain ⟨c, r, same⟩ := List.exists_cons_of_ne_nil kind.nonempty
  obtain ⟨-, indent, slash⟩ := inLine_of_isKeywordChar (kind.inKind c (by simp [same]))
  rw [same, List.cons_append, margin_cons_of_not indent slash]

/-- The keyword with which a statement begins is not blank. -/
theorem isBlank_eq_false_of_mem_head?_kind (kind : Kind) (rest : List Char) :
    ∀ c ∈ (kind.chars ++ rest).head?, isBlank c = false := by
  obtain ⟨c, r, same⟩ := List.exists_cons_of_ne_nil kind.nonempty
  rw [same]
  exact forall_mem_head? (isBlank_eq_false_of_isKeywordChar (kind.inKind c (by simp [same]))) _

/-- A statement that is written as a text is read to its end, and the kept text is left of it. -/
structure IsKept (text kept : List Char) : Prop where
  begins : ∀ rest, margin (text ++ rest) = text ++ rest
  reads : ∀ rest, statements 0 none "" (text ++ rest) =
    statements 0 none (String.ofList kept) rest
  first : ∀ c ∈ kept.head?, isBlank c = false
  ends : EndsIn (fun c => isBlank c = false ∧ c ≠ ',') kept

theorem Statement.isKept (statement : Statement) : IsKept statement.text statement.kept where
  begins rest := by
    obtain ⟨behind, same⟩ : ∃ behind, statement.text = statement.kind.chars ++ behind := by
      cases statement <;> exact ⟨_, rfl⟩
    rw [same, List.append_assoc, margin_kind]
  reads := statements_text statement
  first := isBlank_eq_false_of_mem_head?_kind statement.kind statement.keptArguments
  ends := endsIn_kept statement

/-- A line of a block declares dependencies through the statements that are left of it. -/
def Declares (line : List Char) (declared : List Dependency) : Prop :=
  ∃ kept : List (List Char), kept.flatMap declarations = declared ∧
    ∀ (lineBreak : LineBreak) (s : List Char),
      statements 0 none "" (margin (line ++ (lineBreak.text ++ s))) =
        (kept ++ (statements 0 none "" (margin s)).1, (statements 0 none "" (margin s)).2)

theorem IsKept.declares {text kept : List Char} (h : IsKept text kept) (indent : Indent) :
    Declares (indent.1 ++ text) (declarations kept) := by
  refine ⟨[kept], by simp, fun lineBreak s => ?_⟩
  have trimmed : IsTrimmed kept := .of_endsIn h.first (h.ends.mono fun c => And.left)
  obtain ⟨c, last, -, comma⟩ := h.ends
  have ends : (trimEnd (String.ofList kept).toList).getLast? ≠ some ',' := by
    rw [String.toList_ofList, trimmed.trimEnd_eq, last]
    simpa using comma
  have nonempty : kept ≠ [] := by
    rintro rfl
    cases last
  obtain ⟨d, r, same⟩ := List.exists_cons_of_ne_nil nonempty
  have cons : ∀ others, consStatement (String.ofList kept).toList others = kept :: others := by
    intro others
    rw [String.toList_ofList, consStatement, trimmed.trim_eq, same]
  rw [List.append_assoc, margin_append_of_isIndent indent.2, h.begins, h.reads,
    statements_ends ends, cons]
  rfl

theorem margin_filler {commented : Bool} (filler : Filler commented) {rest : List Char}
    (h : EndOfLine commented rest) : margin (filler.text ++ rest) = rest := by
  induction filler with
  | blank indent => rw [Filler.text, margin_append_of_isIndent indent.2, margin_of_endOfLine h]
  | comment indent text =>
    rw [Filler.text, List.append_assoc]
    exact margin_commentText indent text h
  | afterComment indent body line ih =>
    simp only [Filler.text, List.append_assoc, List.cons_append]
    rw [margin_commentBody, ih h]

theorem Filler.declares {commented : Bool} (filler : Filler commented) :
    Declares filler.text [] := by
  refine ⟨[], rfl, fun lineBreak s => ?_⟩
  rw [margin_filler filler (EndOfLine.lineBreak _ lineBreak s), statements_ends (by decide)]
  rfl

theorem BodyLine.declares (line : BodyLine) : Declares line.text line.declared := by
  cases line with
  | filler line => exact line.declares
  | statement indent line =>
    have whole := line.isKept.declares indent
    rwa [declarations_kept] at whole

/-- The lines of a block up to its `}` declare their dependencies one after the other. -/
theorem blockDependencies_lines {α : Type} {text : α → List Char}
    {declared : α → List Dependency} (each : ∀ line, Declares (text line) (declared line))
    (lines : List (α × LineBreak)) (closing : Indent) (rest : List Char) :
    blockDependencies ((lines.flatMap fun entry => text entry.1 ++ entry.2.text) ++
        (closing.1 ++ '}' :: rest)) =
      (lines.flatMap fun entry => declared entry.1, rest) := by
  suffices all : ∃ kept : List (List Char),
      kept.flatMap declarations = lines.flatMap (fun entry => declared entry.1) ∧
        statements 0 none "" (margin ((lines.flatMap fun entry => text entry.1 ++ entry.2.text) ++
          (closing.1 ++ '}' :: rest))) = (kept, rest) by
    obtain ⟨kept, same, left⟩ := all
    rw [blockDependencies, blockStatements, left, ← same]
  induction lines with
  | nil =>
    have brace : margin ('}' :: rest) = '}' :: rest :=
      margin_cons_of_not (by decide) (by decide) rest
    refine ⟨[], rfl, ?_⟩
    rw [List.flatMap_nil, List.nil_append, margin_append_of_isIndent closing.2, brace,
      statements]
    simp [isLineBreak, inLiteral, isQuote, consStatement, trim, trimEnd, trimStart]
  | cons entry lines ih =>
    obtain ⟨line, lineBreak⟩ := entry
    obtain ⟨kept, same, left⟩ := ih
    obtain ⟨first, gives, reads⟩ := each line
    refine ⟨first ++ kept, by simp [gives, same], ?_⟩
    rw [List.flatMap_cons, List.append_assoc, List.append_assoc, reads, left]

theorem blockDependencies_body (body : Body) (closing : Indent) (rest : List Char) :
    blockDependencies (body.text ++ (closing.1 ++ '}' :: rest)) = (body.declared, rest) :=
  blockDependencies_lines BodyLine.declares body closing rest

/-! ## Blocks and scripts -/

variable {nesting : Nesting} {outer : List Frame} {doc : Document}

def dependenciesKey : Key where
  chars := "dependencies".toList
  nonempty := by decide
  inWord := by decide
  notKeyword := by decide
  notLineComment := by decide
  notBlockComment := by decide

/-- A block whose lines declare dependencies adds them to the document. -/
theorem readsTo_dependencies (indent : Indent) (separators : Separators) {lines : List Char}
    {declared : List Dependency} (closing : Indent) (tail : Tail) (rest : List Char)
    (body : ∀ rest, blockDependencies (lines ++ (closing.1 ++ '}' :: rest)) = (declared, rest))
    (room : nesting.depth + outer.length < nesting.limit) :
    ReadsTo nesting outer doc
      (indent.1 ++ ("dependencies".toList ++ (separators.1 ++ '{' ::
        (lines ++ (closing.1 ++ '}' :: tail.1)))) ++ rest)
      (doc.joinBlock "dependencies" (.dependencies declared)) rest := by
  have brace : ∀ t, EndOfKey ('{' :: t) := forall_mem_head? (by decide)
  have shape : indent.1 ++ ("dependencies".toList ++ (separators.1 ++ '{' ::
        (lines ++ (closing.1 ++ '}' :: tail.1)))) ++ rest =
      indent.1 ++ (dependenciesKey.chars ++ (separators.1 ++ '{' ::
        (lines ++ (closing.1 ++ '}' :: (tail.1 ++ rest))))) := by
    simp only [List.append_assoc, List.cons_append]
    rfl
  refine ⟨doc.joinBlock "dependencies" (.dependencies declared), .done, rfl, ?_⟩
  rw [shape, read_key indent dependenciesKey (endOfKey_separators separators (brace _)),
    read_key_separators,
    read_dependencies (dependenciesKey.blockKey?_line separators) room, body]
  exact read_tail tail rest

theorem readsTo_block (block : Block) (rest : List Char)
    (room : nesting.depth + outer.length < nesting.limit) :
    ReadsTo nesting outer doc (block.text ++ rest)
      (doc.joinBlock "dependencies" (.dependencies block.body.declared)) rest :=
  readsTo_dependencies block.indent block.separators block.closing block.tail rest
    (blockDependencies_body block.body block.closing) room

theorem readsTo_filler {commented : Bool} (filler : Filler commented) {rest : List Char}
    (h : EndOfLine commented rest) : ReadsTo nesting outer doc (filler.text ++ rest) doc rest :=
  readsTo_of_margin (margin_filler filler h)

/-- A document that only holds dependencies. -/
def documentOf (declared : List Dependency) : Document :=
  [("dependencies", .dependencies declared)]

theorem joinBlock_documentOf (declared more : List Dependency) :
    Document.joinBlock "dependencies" (.dependencies more) (documentOf declared) =
      documentOf (declared ++ more) := by
  simp [documentOf, Document.joinBlock, Document.get?, Document.set]

theorem readsTo_part (part : Part) {rest : List Char}
    (h : ∀ commented, EndOfLine commented rest) (declared : List Dependency)
    (room : nesting.depth + outer.length < nesting.limit) :
    ReadsTo nesting outer (documentOf declared) (part.text ++ rest)
      (documentOf (declared ++ part.declared)) rest := by
  cases part with
  | filler line =>
    rw [Part.declared, List.append_nil]
    exact readsTo_filler line (h _)
  | block lines =>
    rw [Part.declared, ← joinBlock_documentOf]
    exact readsTo_block lines rest room

/-- Further lines add their declarations to what is read before them. -/
theorem readsTo_others (others : List (LineBreak × Part)) {s : List Char}
    {declared : List Dependency} (room : nesting.depth + outer.length < nesting.limit)
    (h : ReadsTo nesting outer doc s (documentOf declared)
      (others.flatMap fun (lineBreak, part) => lineBreak.text ++ part.text)) :
    ReadsTo nesting outer doc s
      (documentOf (declared ++ others.flatMap fun (_, part) => part.declared)) [] := by
  induction others generalizing declared with
  | nil => simpa using h
  | cons entry others ih =>
    obtain ⟨lineBreak, part⟩ := entry
    have ends : ∀ commented, EndOfLine commented
        (others.flatMap fun (lineBreak, part) => lineBreak.text ++ part.text) := by
      intro commented
      cases others with
      | nil => exact fun c hc => by cases hc
      | cons next others =>
        rw [List.flatMap_cons, List.append_assoc]
        exact EndOfLine.lineBreak commented next.1 _
    rw [List.flatMap_cons, List.append_assoc] at h
    have onward := ih (h.lineBreak lineBreak (readsTo_part part ends declared room))
    rwa [List.append_assoc] at onward

/-- Lines that say nothing may stand before any text. -/
theorem readsTo_before (before : List ((Σ commented, Filler commented) × LineBreak))
    {s stored rest : _} (h : ReadsTo nesting outer doc s stored rest) :
    ReadsTo nesting outer doc
      ((before.flatMap fun (filler, lineBreak) => filler.2.text ++ lineBreak.text) ++ s)
      stored rest := by
  induction before with
  | nil => exact h
  | cons entry before ih =>
    obtain ⟨⟨commented, filler⟩, lineBreak⟩ := entry
    rw [List.flatMap_cons, List.append_assoc, List.append_assoc]
    exact (readsTo_filler filler (EndOfLine.lineBreak commented lineBreak _)).lineBreak lineBreak ih

/-- A script of dependencies blocks is read as the list of the dependencies that its statements
declare, whatever the layout of its lines and however it is cut into blocks. -/
theorem parseText_dependencies (script : Script) (options : ParseOptions) (input : String)
    (text : dropByteOrderMark input.toList = script.text) (room : 0 < options.maxDepth)
    (size : input.utf8ByteSize ≤ options.maxInputBytes) :
    parseText options input = .ok [("dependencies", .dependencies script.declared)] := by
  have first : ReadsTo ⟨options.maxDepth, 0⟩ [] []
      (script.first.text ++ script.others.flatMap fun (lineBreak, part) => lineBreak.text ++ part.text)
      (documentOf script.first.body.declared)
      (script.others.flatMap fun (lineBreak, part) => lineBreak.text ++ part.text) :=
    readsTo_block script.first _ room
  have whole : ReadsTo ⟨options.maxDepth, 0⟩ [] [] script.text (documentOf script.declared) [] :=
    readsTo_before script.before (readsTo_others script.others room first)
  exact parseText_of_closed size (text ▸ whole.readScope_eq)

/-- Two blocks with a list over two lines, named parts, and a call with excluded modules. -/
def sampleScript : Script where
  before := [(⟨true, .comment Run.none ⟨[' ', '{'], by decide⟩⟩, .lineFeed)]
  first := {
    indent := Run.none
    separators := ⟨[' '], isDelimiter_of_mem_space⟩
    body := [
      (.filler (.blank Run.none), .lineFeed),
      (.statement ⟨[' '], isIndent_of_mem_space⟩ (.listed
        ⟨"api".toList, by decide, by decide, by decide⟩ ⟨[' '], by decide, isIndent_of_mem_space⟩
        ⟨⟨'\'', by decide⟩, ⟨"g".toList, by decide⟩, ⟨"a".toList, by decide⟩,
          ⟨"[2.1,3.0[".toList, by decide⟩, by decide, by decide, by decide⟩
        [(⟨Run.none, some (.lineFeed, ⟨[' '], isIndent_of_mem_space⟩)⟩,
          ⟨⟨'"', by decide⟩, ⟨"g".toList, by decide⟩, ⟨"b".toList, by decide⟩,
            ⟨"$\x7bx\x7d".toList, by decide⟩, by decide, by decide, by decide⟩)]), .lineFeed)]
    closing := Run.none
    tail := Run.none }
  others := [(.lineFeed, .block {
    indent := Run.none
    separators := ⟨[' '], isDelimiter_of_mem_space⟩
    body := [
      (.filler (.blank Run.none), .lineFeed),
      (.statement Run.none (.named
        ⟨"test".toList, by decide, by decide, by decide⟩ ⟨[' '], by decide, isIndent_of_mem_space⟩
        none ⟨"n".toList, by decide⟩ (some ⟨"1".toList, by decide⟩)), .lineFeed),
      (.statement Run.none (.excluding
        ⟨"api".toList, by decide, by decide, by decide⟩
        ⟨⟨'\'', by decide⟩, ⟨"g".toList, by decide⟩, ⟨"c".toList, by decide⟩,
          ⟨"1".toList, by decide⟩, by decide, by decide, by decide⟩
        ⟨[' '], isIndent_of_mem_space⟩ .lineFeed
        ⟨⟨[' '], isIndent_of_mem_space⟩, ⟨[' '], by decide, isIndent_of_mem_space⟩,
          ⟨"module".toList, "m, \x7d".toList, by decide, by decide⟩,
          [⟨['g', 'r', 'o', 'u', 'p'], "x".toList, by decide, by decide⟩], .lineFeed, by decide⟩
        [] Run.none), .lineFeed)]
    closing := Run.none
    tail := Run.none })]

def sampleText : String :=
  "// \x7b\ndependencies \x7b\n api 'g:a:[2.1,3.0[',\n \"g:b:$\x7bx\x7d\"\n\x7d\n" ++
    "dependencies \x7b\ntest name: 'n', version: '1'\napi('g:c:1') \x7b\n" ++
    " exclude module: 'm, \x7d', group: 'x'\n\x7d\n\x7d"

theorem parseText_sampleScript :
    parseText ⟨1, 256, none⟩ sampleText = .ok [("dependencies", .dependencies [
      ⟨"g", "a", "[2.1,3.0[", "api", []⟩, ⟨"g", "b", "$\x7bx\x7d", "api", []⟩,
      ⟨"", "n", "1", "test", []⟩,
      ⟨"g", "c", "1", "api", [[("group", "x"), ("module", "m, \x7d")]]⟩])] := by
  have rule : [("module", "m, \x7d"), ("group", "x")].mergeSort (fun a b => a.1 ≤ b.1) =
      [("group", "x"), ("module", "m, \x7d")] := by
    simp [List.mergeSort]
  rw [← rule]
  exact parseText_dependencies sampleScript ⟨1, 256, none⟩ sampleText (by decide +kernel)
    (by decide) (by decide +kernel)

end BuildScript.Dependencies
