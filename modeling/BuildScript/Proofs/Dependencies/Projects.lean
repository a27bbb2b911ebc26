import BuildScript.Proofs.Dependencies.Reading

/-!
# References to projects

A dependency on another project of the build is written as a call with the path of the project, such
as `api project(':lib:core')`.  It has the text of the call as its name.  The search for a coordinate
comes first, though, and finds one inside a path of three segments or more.
-/

namespace BuildScript.Dependencies

open Text Grammar Unicode

/-! ## Paths and calls -/

/-- An ASCII letter or digit, an underscore, a dot or a hyphen. -/
def isSegmentChar (c : Char) : Bool := c.isAlphanum || c == '_' || c == '.' || c == '-'

/-- A name in a path. -/
structure Segment where
  chars : List Char
  nonempty : chars ≠ []
  inSegment : ∀ c ∈ chars, isSegmentChar c = true

def Segment.name (segment : Segment) : String := String.ofList segment.chars

/-- A path such as `:lib:core`. -/
structure ProjectPath where
  first : Segment
  others : List Segment

def ProjectPath.segments (path : ProjectPath) : List Segment := path.first :: path.others

def ProjectPath.text (path : ProjectPath) : List Char :=
  path.segments.flatMap fun segment => ':' :: segment.chars

/-- The coordinate that the first three segments are taken for. -/
def ProjectPath.coordinate? (path : ProjectPath) : Option Coordinate :=
  match path.segments with
  | group :: name :: version :: _ => some ⟨group.name, name.name, version.name⟩
  | _ => none

/-- A call `project(':lib:core')`. -/
structure ProjectCall where
  quote : Quote
  path : ProjectPath

def ProjectCall.literal (call : ProjectCall) : List Char :=
  call.quote.1 :: (call.path.text ++ [call.quote.1])

/-- The name of the function that is called. -/
def projectWord : List Char := ['p', 'r', 'o', 'j', 'e', 'c', 't']

def ProjectCall.text (call : ProjectCall) : List Char :=
  projectWord ++ '(' :: (call.literal ++ [')'])

def ProjectCall.name (call : ProjectCall) : String := String.ofList call.text

/-- What the call is read as.  A path of three segments or more is taken for a coordinate. -/
def ProjectCall.coordinate (call : ProjectCall) : Coordinate :=
  call.path.coordinate?.getD ⟨"", call.name, ""⟩

/-! ## Reading a path -/

theorem isPartChar_of_isSegmentChar {c : Char} (h : isSegmentChar c = true) :
    isPartChar c = true := by
  have parts : ((c.isAlphanum = true ∨ c = '_') ∨ c = '.') ∨ c = '-' := by
    simpa [isSegmentChar] using h
  rcases parts with ((alphanum | rfl) | rfl) | rfl
  · have ascii := (toNat_of_isAlphanum alphanum).2
    simp [isPartChar, isWord, ascii, alphanum]
  · decide
  · decide
  · decide

namespace Segment

variable (segment : Segment)

def run : Run isPartChar :=
  ⟨segment.chars, fun c hc => isPartChar_of_isSegmentChar (segment.inSegment c hc)⟩

theorem not_mem {c : Char} (h : isPartChar c = false) : c ∉ segment.chars := by
  intro member
  rw [segment.run.2 c member] at h
  cases h

theorem part?_append (rest : List Char) :
    part? (segment.chars ++ ':' :: rest) = some (segment.chars, rest) := by
  have nonempty : segment.run.1 ≠ [] := segment.nonempty
  exact Dependencies.part?_append nonempty rest

/-- A segment that no colon follows is not the group or the name of a coordinate. -/
theorem part?_append_eq_none {c : Char} (stop : isPartChar c = false) (colon : c ≠ ':')
    (rest : List Char) : part? (segment.chars ++ c :: rest) = none := by
  rw [part?, run?_append segment.nonempty segment.run.2 (forall_mem_head? stop rest)]
  split
  · next same =>
    obtain ⟨-, behind⟩ := Prod.mk.inj (Option.some.inj same)
    exact absurd (List.cons.inj behind).1 colon
  · rfl

theorem version_append {c : Char} (stop : isVersionChar c = false) (rest : List Char) :
    run? isVersionChar (segment.chars ++ c :: rest) = some (segment.chars, c :: rest) := by
  refine run?_append segment.nonempty ?_ (forall_mem_head? stop rest)
  exact fun c hc => isVersionChar_of_isPartChar (segment.run.2 c hc)

end Segment

theorem findCoordinate?_of_coordinateHere? {s : List Char} {coordinate : Coordinate}
    (h : coordinateHere? s = some coordinate) : findCoordinate? s = some coordinate := by
  cases s with
  | nil => cases h
  | cons c r => rw [findCoordinate?, h, Option.some_or]

/-- The first three segments of a path before a quote are a coordinate, fewer are none. -/
theorem findCoordinate?_path (path : ProjectPath) {q : Char} (quote : isQuote q = true)
    (rest : List Char) (colon : ':' ∉ rest) :
    findCoordinate? (path.text ++ q :: rest) = path.coordinate? := by
  obtain ⟨stop, notColon⟩ : (isPartChar q = false ∧ isVersionChar q = false) ∧ q ≠ ':' := by
    rcases eq_of_isQuote quote with rfl | rfl <;> decide
  obtain ⟨first, others⟩ := path
  have outside : ∀ segment : Segment, ':' ∉ segment.chars := fun segment =>
    segment.not_mem (by decide)
  have start : ∀ r, findCoordinate? (':' :: r) = findCoordinate? r := by
    intro r
    have none : part? (':' :: r) = none := part?_eq_none (forall_mem_head? (by decide) r)
    simp [findCoordinate?, coordinateHere?, none]
  have alone : ∀ segment : Segment, findCoordinate? (segment.chars ++ q :: rest) = none := by
    intro segment
    exact findCoordinate?_of_not_mem (by simp [outside, Ne.symm notColon, colon])
  rcases others with _ | ⟨second, _ | ⟨third, more⟩⟩
  · simp [ProjectPath.text, ProjectPath.segments, ProjectPath.coordinate?, start, alone]
  · have text : ProjectPath.text ⟨first, [second]⟩ ++ q :: rest =
        ':' :: (first.chars ++ ':' :: (second.chars ++ q :: rest)) := by
      simp [ProjectPath.text, ProjectPath.segments]
    rw [text, start, findCoordinate?_colon (outside first)
      (second.part?_append_eq_none stop.1 notColon rest), alone]
    rfl
  · obtain ⟨c, behind, text, ends⟩ : ∃ c behind,
        ProjectPath.text ⟨first, second :: third :: more⟩ ++ q :: rest =
          ':' :: (first.chars ++ ':' :: (second.chars ++ ':' :: (third.chars ++ c :: behind))) ∧
        isVersionChar c = false := by
      cases more with
      | nil => exact ⟨q, rest, by simp [ProjectPath.text, ProjectPath.segments], stop.2⟩
      | cons next more =>
        refine ⟨':', next.chars ++ (more.flatMap fun segment => ':' :: segment.chars) ++ q :: rest,
          ?_, by decide⟩
        simp [ProjectPath.text, ProjectPath.segments]
    have here : coordinateHere?
        (first.chars ++ ':' :: (second.chars ++ ':' :: (third.chars ++ c :: behind))) =
        some ⟨first.name, second.name, third.name⟩ := by
      simp [coordinateHere?, first.part?_append, second.part?_append, third.version_append ends,
        Segment.name]
    rw [text, start, findCoordinate?_of_coordinateHere? here]
    rfl

/-! ## Reading a call -/

namespace ProjectCall

variable (call : ProjectCall)

theorem inLiteral {c : Char} (h : c ∈ call.path.text) :
    c ≠ call.quote.1 ∧ isLineBreak c = false ∧ c ≠ ')' := by
  obtain ⟨segment, -, member⟩ := List.mem_flatMap.1 h
  have quote := eq_of_isQuote call.quote.2
  rcases List.mem_cons.1 member with rfl | inside
  · refine ⟨?_, by decide, by decide⟩
    rcases quote with same | same <;> rw [same] <;> decide
  · have other : ∀ d, isPartChar d = false → c ≠ d := by
      rintro d stop rfl
      exact segment.not_mem stop inside
    refine ⟨?_, ?_, other ')' (by decide)⟩
    · rcases quote with same | same <;> rw [same] <;> exact other _ (by decide)
    · simp [isLineBreak, other '\n' (by decide), other '\r' (by decide)]

theorem flat {isMember : Char → Bool} : Flat isMember call.literal :=
  flat_literal call.quote.2 fun _ hc => ⟨(call.inLiteral hc).1, (call.inLiteral hc).2.1⟩

theorem text_append (rest : List Char) :
    call.text ++ rest = projectWord ++ '(' :: (call.literal ++ ')' :: rest) := by
  simp [text]

theorem text_eq_concat : call.text = (projectWord ++ '(' :: call.literal) ++ [')'] := by
  simp [text]

theorem text_ne_nil : call.text ≠ [] := by simp [text]

theorem endsIn {kind : Char → Prop} (h : kind ')') : EndsIn kind call.text := by
  rw [text_eq_concat]
  exact endsIn_concat h _

theorem isTrimmed : IsTrimmed call.text := by
  have first : isBlank 'p' = false := by decide
  have last : isBlank ')' = false := by decide
  exact .of_endsIn (forall_mem_head? first _) (call.endsIn last)

/-- The name of the function is of no use to a scanner. -/
theorem flat_projectWord : Flat inLine projectWord ∧ Flat inArgument projectWord :=
  ⟨flat_of_forall (by decide), flat_of_forall (by decide)⟩

theorem flat_isPlain_projectWord : Flat isPlain projectWord :=
  flat_projectWord.1.mono fun _ => isPlain_of_inLine

theorem findCoordinate?_text : findCoordinate? call.text = call.path.coordinate? := by
  have shape : call.text = (projectWord ++ ['(', call.quote.1]) ++
      (call.path.text ++ call.quote.1 :: [')']) := by
    simp [text, literal]
  obtain ⟨colon, stop⟩ : ':' ∉ projectWord ++ ['(', call.quote.1] ∧
      isPartChar call.quote.1 = false := by
    rcases eq_of_isQuote call.quote.2 with same | same <;> rw [same] <;> decide
  rw [shape, findCoordinate?_append colon (by simpa using stop),
    findCoordinate?_path call.path call.quote.2 _ (by decide)]

/-- The call is one argument. -/
theorem splitArguments_text : splitArguments call.text = [call.text] := by
  have opening : ∀ r, argumentPieces 0 none ('(' :: r) =
      prependToFirst '(' (argumentPieces 1 none r) := fun r => rfl
  have closing : argumentPieces 1 none [')'] = [[')']] := rfl
  have pieces : argumentPieces 0 none call.text = [call.text] := by
    have behind : argumentPieces 0 none ('(' :: (call.literal ++ [')'])) =
        ['(' :: (call.literal ++ [')'])] := by
      rw [opening, argumentPieces_flat call.flat closing]
      rfl
    exact argumentPieces_flat flat_projectWord.2 behind
  rw [splitArguments, call.isTrimmed.allBlank_eq_false call.text_ne_nil, pieces]
  simp [call.isTrimmed.trim_eq]

theorem fromProject?_text : fromProject? call.text = some call.text := by
  have found : after? "project(".toList call.text = some (call.literal ++ [')']) :=
    after?_eq_some_iff.2 rfl
  obtain ⟨c, r, same⟩ := List.exists_cons_of_ne_nil call.text_ne_nil
  rw [same] at found ⊢
  rw [fromProject?, found]
  rfl

theorem callText_text (s : List Char) : callText s call.text = call.text := by
  have word : ∀ c ∈ projectWord, (c != ')') = true := by decide
  have quote : (call.quote.1 != ')') = true := by
    rcases eq_of_isQuote call.quote.2 with same | same <;> rw [same] <;> rfl
  have inside : ∀ c ∈ projectWord ++ '(' :: call.literal, (c != ')') = true := by
    intro c hc
    rcases List.mem_append.1 hc with here | here
    · exact word c here
    rcases List.mem_cons.1 here with rfl | here
    · rfl
    rcases List.mem_cons.1 here with rfl | here
    · exact quote
    rcases List.mem_append.1 here with here | here
    · simpa using (call.inLiteral here).2.2
    · rwa [List.mem_singleton.1 here]
  rw [callText, text_eq_concat, List.takeWhile_append_of_pos inside]
  simp

/-- A call is read as the coordinate in its path or else as the name of a project. -/
theorem coordinates_text : coordinates call.text = [call.coordinate] := by
  have unquoted : unquote (trim call.text) = call.text := by
    rw [call.isTrimmed.trim_eq]
    exact unquote_of_not_isQuote (by decide) _
  have search : quotedCoordinate? call.text = findCoordinate? call.text := by
    rw [quotedCoordinate?, unquoted]
  rw [call.findCoordinate?_text] at search
  unfold coordinates ProjectCall.coordinate
  rw [call.splitArguments_text, List.mapM_cons, List.mapM_nil, search, call.fromProject?_text]
  cases call.path.coordinate? with
  | some coordinate => rfl
  | none => simp [coordinateOfName, callText_text, ProjectCall.name]

theorem coordinate_eq_iff : call.coordinate = ⟨"", call.name, ""⟩ ↔ call.path.segments.length ≤ 2 := by
  obtain ⟨quote, first, others⟩ := call
  rcases others with _ | ⟨second, _ | ⟨third, more⟩⟩
  · simp [coordinate, ProjectPath.coordinate?, ProjectPath.segments]
  · simp [coordinate, ProjectPath.coordinate?, ProjectPath.segments]
  · have group : first.name ≠ "" := ofList_ne_empty first.nonempty
    simp [coordinate, ProjectPath.coordinate?, ProjectPath.segments, group]

end ProjectCall

/-! ## References -/

inductive Reference where
  /-- `KIND project(':lib:core')` -/
  | bare (kind : Kind) (gap : Gap) (call : ProjectCall)
  /-- `KIND(project(':lib:core'))` -/
  | parenthesised (kind : Kind) (call : ProjectCall)

namespace Reference

def kind : Reference → Kind
  | bare kind _ _ => kind
  | parenthesised kind _ => kind

def call : Reference → ProjectCall
  | bare _ _ call => call
  | parenthesised _ call => call

/-- What stands behind the keyword. -/
def arguments : Reference → List Char
  | bare _ gap call => gap.chars ++ call.text
  | parenthesised _ call => '(' :: (call.text ++ [')'])

def text (reference : Reference) : List Char := reference.kind.chars ++ reference.arguments

/-- The dependency on the project whose call stands there. -/
def project (reference : Reference) : Dependency :=
  dependency reference.kind [] ⟨"", reference.call.name, ""⟩

/-- The dependency that the reference is read as. -/
def declared (reference : Reference) : Dependency :=
  dependency reference.kind [] reference.call.coordinate

variable (reference : Reference)

theorem declared_eq_project_iff :
    reference.declared = reference.project ↔ reference.call.path.segments.length ≤ 2 := by
  rw [← reference.call.coordinate_eq_iff]
  constructor
  · intro same
    obtain ⟨group, name, version, -⟩ := Dependency.mk.inj same
    exact congr (congr (congrArg Coordinate.mk group) name) version
  · intro same
    rw [declared, same, project]

/-- The call is neither cut at a brace nor stripped of its parentheses. -/
theorem splitBlock_call (call : ProjectCall) (depth : Nat) (r : List Char) :
    splitBlock depth none (call.text ++ r) =
      (call.text ++ (splitBlock depth none r).1, (splitBlock depth none r).2) := by
  have opening : ∀ t, splitBlock depth none ('(' :: t) =
      ('(' :: (splitBlock (depth + 1) none t).1, (splitBlock (depth + 1) none t).2) := by
    intro t
    simp [splitBlock, inLiteral, isQuote, quoteAfter]
  have closing : ∀ t, splitBlock (depth + 1) none (')' :: t) =
      (')' :: (splitBlock depth none t).1, (splitBlock depth none t).2) := by
    intro t
    simp [splitBlock, inLiteral, isQuote, quoteAfter]
  rw [call.text_append, splitBlock_flat ProjectCall.flat_isPlain_projectWord, opening,
    splitBlock_flat call.flat, closing]
  simp [ProjectCall.text]

theorem closesAtEnd_call (call : ProjectCall) (r : List Char) :
    closesAtEnd 1 none (call.text ++ r) = closesAtEnd 1 none r := by
  have opening : ∀ t, closesAtEnd 1 none ('(' :: t) = closesAtEnd 2 none t := fun t => rfl
  have closing : ∀ t, closesAtEnd 2 none (')' :: t) = closesAtEnd 1 none t := fun t => rfl
  rw [call.text_append, closesAtEnd_flat ProjectCall.flat_isPlain_projectWord, opening,
    closesAtEnd_flat call.flat, closing]

/-- A reference declares one dependency. -/
theorem declarations_text : declarations reference.text = [reference.declared] := by
  have single : ∀ (kind : Kind) (call : ProjectCall),
      (coordinates call.text).map (dependency kind []) = [dependency kind [] call.coordinate] := by
    intro kind call
    rw [call.coordinates_text]
    rfl
  cases reference with
  | bare kind gap call =>
    obtain ⟨g, blanks, same⟩ := List.exists_cons_of_ne_nil gap.nonempty
    have stop : ∀ c ∈ (gap.chars ++ call.text).head?, isKeywordChar c = false := by
      rw [same]
      refine forall_mem_head? ?_ _
      rcases eq_of_isIndent (gap.blanks g (by simp [same])) with rfl | rfl <;> decide
    have parts : splitBlock 0 none (gap.chars ++ call.text) = (gap.chars ++ call.text, none) := by
      have whole := splitBlock_call call 0 []
      rw [List.append_nil] at whole
      rw [splitBlock_flat (flat_of_isIndent gap.blanks), whole]
      simp [splitBlock]
    have bare : trim (stripParentheses (trim (gap.chars ++ call.text))) = call.text := by
      rw [call.isTrimmed.trim_before call.text_ne_nil
        fun c hc => isBlank_of_isIndent (gap.blanks c hc)]
      exact call.isTrimmed.trim_eq
    exact (declarations_of_parts kind stop parts bare call.text_ne_nil).trans (single kind call)
  | parenthesised kind call =>
    have paren : isKeywordChar '(' = false := by decide
    have stop : ∀ c ∈ ('(' :: (call.text ++ [')'])).head?, isKeywordChar c = false :=
      forall_mem_head? paren _
    have parts : splitBlock 0 none ('(' :: (call.text ++ [')'])) =
        ('(' :: (call.text ++ [')']), none) := by
      have opening : ∀ t, splitBlock 0 none ('(' :: t) =
          ('(' :: (splitBlock 1 none t).1, (splitBlock 1 none t).2) := fun t => rfl
      rw [opening, splitBlock_call]
      rfl
    have trimmed : IsTrimmed ('(' :: (call.text ++ [')'])) := by
      have first : isBlank '(' = false := by decide
      have last : isBlank ')' = false := by decide
      exact .of_endsIn (forall_mem_head? first _) (endsIn_concat last ('(' :: call.text))
    have bare : trim (stripParentheses (trim ('(' :: (call.text ++ [')'])))) = call.text := by
      have closes : closesAtEnd 1 none (call.text ++ [')']) = true := by
        rw [closesAtEnd_call]
        rfl
      rw [trimmed.trim_eq, stripParentheses, if_pos closes, List.dropLast_concat,
        call.isTrimmed.trim_eq]
    exact (declarations_of_parts kind stop parts bare call.text_ne_nil).trans (single kind call)

theorem statements_call (call : ProjectCall) (depth : Nat) (current : String) (r : List Char) :
    statements depth none current (call.text ++ r) =
      statements depth none (current ++ String.ofList call.text) r := by
  rw [call.text_append, statements_flat ProjectCall.flat_projectWord.1, statements_opening (by decide),
    statements_flat call.flat, statements_closing (by decide)]
  congr 1
  apply String.ext
  simp [ProjectCall.text]

theorem statements_text (rest : List Char) :
    statements 0 none "" (reference.text ++ rest) =
      statements 0 none (String.ofList reference.text) rest := by
  cases reference with
  | bare kind gap call =>
    have shape : text (.bare kind gap call) ++ rest =
        (kind.chars ++ gap.chars) ++ (call.text ++ rest) := by
      simp [text, Reference.kind, arguments]
    rw [shape, statements_flat (kind.flat.append (flat_inLine_of_isIndent gap.blanks)),
      statements_call]
    congr 1
    apply String.ext
    simp [text, Reference.kind, arguments]
  | parenthesised kind call =>
    have shape : text (.parenthesised kind call) ++ rest =
        kind.chars ++ '(' :: (call.text ++ ')' :: rest) := by
      simp [text, Reference.kind, arguments]
    rw [shape, statements_flat kind.flat, statements_opening (by decide), statements_call,
      statements_closing (by decide)]
    congr 1
    apply String.ext
    simp [text, Reference.kind, arguments]

theorem isKept : IsKept reference.text reference.text where
  begins rest := by rw [text, List.append_assoc, margin_kind]
  reads := reference.statements_text
  first := isBlank_eq_false_of_mem_head?_kind reference.kind reference.arguments
  ends := by
    have last : isBlank ')' = false ∧ ')' ≠ ',' := by decide
    refine EndsIn.append ?_ reference.kind.chars
    cases reference with
    | bare kind gap call => exact (call.endsIn last).append gap.chars
    | parenthesised kind call => exact endsIn_concat last ('(' :: call.text)

end Reference

/-! ## Blocks with references -/

/-- A line of a block, with a reference or with anything else that a block may hold. -/
inductive ReferenceLine where
  | reference (indent : Indent) (reference : Reference)
  | other (line : BodyLine)

namespace ReferenceLine

def text : ReferenceLine → List Char
  | reference indent line => indent.1 ++ line.text
  | other line => line.text

/-- What the line is read as. -/
def declared : ReferenceLine → List Dependency
  | reference _ line => [line.declared]
  | other line => line.declared

theorem declares (line : ReferenceLine) : Declares line.text line.declared := by
  cases line with
  | reference indent line =>
    have whole := line.isKept.declares indent
    rwa [line.declarations_text] at whole
  | other line => exact line.declares

end ReferenceLine

/-- A block `dependencies { … }` with references in it. -/
structure ReferenceBlock where
  indent : Indent
  separators : Separators
  lines : List (ReferenceLine × LineBreak)
  closing : Indent
  tail : Tail

namespace ReferenceBlock

def linesText (block : ReferenceBlock) : List Char :=
  block.lines.flatMap fun entry => entry.1.text ++ entry.2.text

def text (block : ReferenceBlock) : List Char :=
  block.indent.1 ++ ("dependencies".toList ++ (block.separators.1 ++ '{' ::
    (block.linesText ++ (block.closing.1 ++ '}' :: block.tail.1))))

end ReferenceBlock

/-- What the lines of a block are read as. -/
def linesDeclared (lines : List (ReferenceLine × LineBreak)) : List Dependency :=
  lines.flatMap fun entry => entry.1.declared

theorem blockDependencies_references (block : ReferenceBlock) (rest : List Char) :
    blockDependencies (block.linesText ++ (block.closing.1 ++ '}' :: rest)) =
      (linesDeclared block.lines, rest) :=
  blockDependencies_lines ReferenceLine.declares block.lines block.closing rest

theorem parseText_referenceBlock (block : ReferenceBlock) {options : ParseOptions} {input : String}
    (text : dropByteOrderMark input.toList = block.text) (room : 0 < options.maxDepth)
    (size : input.utf8ByteSize ≤ options.maxInputBytes) :
    parseText options input = .ok [("dependencies", .dependencies (linesDeclared block.lines))] := by
  have run : ReadsTo ⟨options.maxDepth, 0⟩ [] [] (block.text ++ [])
      (Document.joinBlock "dependencies" (.dependencies (linesDeclared block.lines)) []) [] :=
    readsTo_dependencies block.indent block.separators block.closing block.tail []
      (blockDependencies_references block) room
  rw [List.append_nil] at run
  exact parseText_of_closed size (text ▸ run.readScope_eq)

/-- A reference gives one record with the text of its call as the name if and only if its path has at
most two segments, wherever it stands in a block and whatever stands around it. -/
theorem reference_is_project_iff (block : ReferenceBlock)
    {before after : List (ReferenceLine × LineBreak)} {indent : Indent} {reference : Reference}
    {lineBreak : LineBreak}
    (line : block.lines = before ++ (.reference indent reference, lineBreak) :: after) :
    (reference.call.path.segments.length ≤ 2 ↔
      ∀ rest, blockDependencies (block.linesText ++ (block.closing.1 ++ '}' :: rest)) =
        (linesDeclared before ++ reference.project :: linesDeclared after, rest)) ∧
    ∀ (options : ParseOptions) (input : String), dropByteOrderMark input.toList = block.text →
      0 < options.maxDepth → input.utf8ByteSize ≤ options.maxInputBytes →
        (reference.call.path.segments.length ≤ 2 ↔
          parseText options input = .ok [("dependencies", .dependencies
            (linesDeclared before ++ reference.project :: linesDeclared after))]) := by
  have declared : linesDeclared block.lines =
      linesDeclared before ++ reference.declared :: linesDeclared after := by
    rw [line]
    simp [linesDeclared, ReferenceLine.declared]
  have same : reference.call.path.segments.length ≤ 2 ↔ linesDeclared block.lines =
      linesDeclared before ++ reference.project :: linesDeclared after := by
    rw [declared, List.append_cancel_left_eq, List.cons.injEq, and_iff_left rfl,
      reference.declared_eq_project_iff]
  refine ⟨?_, fun options input text room size => ?_⟩
  · rw [same]
    constructor
    · intro record rest
      rw [blockDependencies_references, record]
    · intro all
      have here := all []
      rw [blockDependencies_references] at here
      exact (Prod.mk.inj here).1
  · rw [same, parseText_referenceBlock block text room size]
    simp

theorem isQuote_apostrophe : isQuote '\'' = true := rfl

theorem isQuote_quotationMark : isQuote '"' = true := rfl

/-- A reference to `:lib:core`, and one in parentheses whose path has three segments. -/
def sampleReferences : ReferenceBlock where
  indent := Run.none
  separators := ⟨[' '], isDelimiter_of_mem_space⟩
  lines := [
    (.other (.filler (.blank Run.none)), .lineFeed),
    (.reference Run.none (.bare
      ⟨"runtime".toList, by decide, by decide, by decide⟩
      ⟨['\t'], by decide, by decide⟩
      ⟨⟨'\'', isQuote_apostrophe⟩, ⟨"lib".toList, by decide, by decide⟩,
        [⟨"core".toList, by decide, by decide⟩]⟩), .lineFeed),
    (.reference Run.none (.parenthesised
      ⟨"debug".toList, by decide, by decide, by decide⟩
      ⟨⟨'"', isQuote_quotationMark⟩, ⟨"k".toList, by decide, by decide⟩,
        [⟨"l".toList, by decide, by decide⟩,
          ⟨"m".toList, by decide, by decide⟩]⟩), .lineFeed)]
  closing := Run.none
  tail := Run.none

theorem sampleReference_is_project :
    parseText ⟨1, 128, none⟩
        "dependencies \x7b\nruntime\tproject(':lib:core')\ndebug(project(\":k:l:m\"))\n\x7d" =
      .ok [("dependencies", .dependencies
        [⟨"", "project(':lib:core')", "", "runtime", []⟩, ⟨"k", "l", "m", "debug", []⟩])] := by
  have split : sampleReferences.lines = sampleReferences.lines.take 1 ++
      sampleReferences.lines.drop 1 := rfl
  exact ((reference_is_project_iff sampleReferences split).2 ⟨1, 128, none⟩ _
    (by decide +kernel) (by decide) (by decide +kernel)).1 (by decide)

/-- A path of three segments is taken for a coordinate, and no record has the call as its name. -/
theorem project_path_taken_for_coordinate :
    parseText ⟨1, 64, none⟩ "dependencies \x7b\ncompile project(':a:b:c')\n\x7d" =
        .ok [("dependencies", .dependencies [⟨"a", "b", "c", "compile", []⟩])] ∧
      parseText ⟨1, 64, none⟩ "dependencies \x7b\ncompile project(':a:b:c')\n\x7d" ≠
        .ok [("dependencies", .dependencies
          [⟨"", "project(':a:b:c')", "", "compile", []⟩])] := by
  have run : parseText ⟨1, 64, none⟩ "dependencies \x7b\ncompile project(':a:b:c')\n\x7d" =
      .ok [("dependencies", .dependencies [⟨"a", "b", "c", "compile", []⟩])] := by
    with_unfolding_all rfl
  refine ⟨run, ?_⟩
  rw [run]
  simp

end BuildScript.Dependencies
