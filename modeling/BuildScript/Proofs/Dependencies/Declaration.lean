import BuildScript.Proofs.Dependencies.Coordinates

/-!
# What a statement declares

A statement comes out of its block with one line feed for each character of its line breaks and
without the indentation of its lines.  From this text every form gives exactly its dependencies.
-/

namespace BuildScript.Dependencies

open Text Grammar Unicode

/-! ## Kept texts -/

/-- An `exclude` line without the indentation before it and the line break behind it. -/
def ExcludeLine.words (line : ExcludeLine) : List Char :=
  "exclude".toList ++ (line.gap.chars ++ attributesText line.first line.others)

def keptExcludes (lines : List ExcludeLine) : List Char :=
  lines.flatMap fun line => line.words ++ keptBreak line.lineBreak

def Statement.kind : Statement → Kind
  | .listed kind _ _ _ => kind
  | .call kind _ => kind
  | .named kind _ _ _ _ => kind
  | .excluding kind _ _ _ _ _ _ => kind

/-- What is kept of a statement behind its keyword. -/
def Statement.keptArguments : Statement → List Char
  | .listed _ gap first others =>
    gap.chars ++ (first.text ++
      others.flatMap fun (comma, quoted) => ',' :: (comma.keptBlanks ++ quoted.text))
  | .call _ coordinate => '(' :: (coordinate.text ++ [')'])
  | .named _ gap group name version => gap.chars ++ namedText group name version
  | .excluding _ coordinate blanks lineBreak first others _ =>
    '(' :: (coordinate.text ++ ')' :: (blanks.1 ++ '{' ::
      (keptBreak lineBreak ++ keptExcludes (first :: others) ++ ['}'])))

def Statement.kept (statement : Statement) : List Char :=
  statement.kind.chars ++ statement.keptArguments

/-! ## Exclude lines -/

theorem not_mem_attributesText_of_inLiteral (first : Attribute) (others : List Attribute) :
    '\n' ∉ attributesText first others := by
  have each : ∀ named ∈ first :: others, '\n' ∉ named.text := by
    intro named _
    have name : '\n' ∉ named.name := fun inName =>
      absurd (plain_of_mem_identifier named.identifier inName).1 (by decide)
    have value : '\n' ∉ named.value := fun inValue =>
      absurd (named.inLiteral _ inValue).2 (by decide)
    simp [Attribute.text, name, value]
  have later : ∀ named ∈ others, '\n' ∉ ',' :: ' ' :: named.text := by
    intro named member
    simpa using each named (by simp [member])
  simpa [attributesText] using ⟨each first (by simp), by simpa using later⟩

theorem ExcludeLine.isTrimmed (line : ExcludeLine) : IsTrimmed line.words := by
  refine .of_endsIn (forall_mem_head? (by decide : isBlank 'e' = false) _) ?_
  exact (((endsIn_attributesText line.first line.others).append line.gap.chars).append
    "exclude".toList).mono fun _ => isBlank_of_isQuote

theorem excludeRule?_words (line : ExcludeLine) : excludeRule? line.words = some line.rule := by
  have word : after? "exclude".toList line.words =
      some (line.gap.chars ++ attributesText line.first line.others) :=
    after?_eq_some_iff.2 rfl
  obtain ⟨c, r, gap⟩ := List.exists_cons_of_ne_nil line.gap.nonempty
  have ends : (line.gap.chars ++ attributesText line.first line.others).head?.any
      (fun c => Unicode.isAlphanumeric c || c == '_') = false := by
    rw [gap]
    rcases eq_of_isIndent (line.gap.blanks c (by simp [gap])) with rfl | rfl <;> rfl
  have spec : trim (line.gap.chars ++ attributesText line.first line.others) =
      attributesText line.first line.others :=
    (isTrimmed_attributesText line.first line.others).trim_before (attributesText_ne_nil _ _)
      fun c hc => isBlank_of_isIndent (line.gap.blanks c hc)
  have distinct : (((line.first :: line.others).map Attribute.pair).map Prod.fst).Nodup := by
    have names : ((line.first :: line.others).map Attribute.pair).map Prod.fst =
        ((line.first :: line.others).map Attribute.name).map String.ofList := by
      simp [Attribute.pair]
    rw [names]
    exact line.distinct.map fun a b same => by simpa using congrArg String.toList same
  have rule : namedArguments (attributesText line.first line.others) = line.rule := by
    rw [namedArguments_attributesText, Attributes.ofPairs_eq_mergeSort distinct, ExcludeLine.rule]
  obtain ⟨pair, others, nonempty⟩ : ∃ pair others, line.rule = pair :: others := by
    apply List.exists_cons_of_ne_nil
    intro empty
    have length := congrArg List.length empty
    simp [ExcludeLine.rule] at length
  simp only [excludeRule?, line.isTrimmed.trim_eq, word, ends, spec,
    stripParentheses_attributesText, rule, nonempty, Bool.false_eq_true, if_false]

/-- A line without words has no rule. -/
theorem excludeRules_lineFeed (s : List Char) : excludeRules ('\n' :: s) = excludeRules s := by
  have empty : lines ('\n' :: s) = [] :: lines s :=
    lines_append List.not_mem_nil (by decide) s
  have none : excludeRule? [] = none := rfl
  rw [excludeRules, empty, List.filterMap_cons, none]
  rfl

theorem excludeRules_keptBreak (lineBreak : LineBreak) (s : List Char) :
    excludeRules (keptBreak lineBreak ++ s) = excludeRules s := by
  cases lineBreak with
  | lineFeed => exact excludeRules_lineFeed s
  | carriageReturn => exact excludeRules_lineFeed s
  | both =>
    rw [keptBreak, List.cons_append, List.singleton_append, excludeRules_lineFeed,
      excludeRules_lineFeed]

/-- The first line gives its rule. -/
theorem excludeRules_append {s : List Char} (lineFeed : '\n' ∉ s)
    (carriageReturn : s.getLast? ≠ some '\r') (lineBreak : LineBreak) (r : List Char) :
    excludeRules (s ++ (keptBreak lineBreak ++ r)) =
      (excludeRule? s).toList ++ excludeRules r := by
  have first : ∀ t, excludeRules (s ++ '\n' :: t) = (excludeRule? s).toList ++ excludeRules t := by
    intro t
    rw [excludeRules, lines_append lineFeed carriageReturn, List.filterMap_cons]
    cases excludeRule? s <;> rfl
  cases lineBreak with
  | lineFeed => exact first r
  | carriageReturn => exact first r
  | both =>
    rw [keptBreak, List.cons_append, List.singleton_append, first, excludeRules_lineFeed]

theorem excludeRules_keptExcludes (lines : List ExcludeLine) :
    excludeRules (keptExcludes lines) = lines.map ExcludeLine.rule := by
  induction lines with
  | nil => rfl
  | cons line lines ih =>
    have lineFeed : '\n' ∉ line.words := by
      intro member
      rcases List.mem_append.1 member with inWord | member
      · exact absurd inWord (by decide)
      rcases List.mem_append.1 member with inGap | inText
      · exact absurd (line.gap.blanks '\n' inGap) (by decide)
      · exact not_mem_attributesText_of_inLiteral line.first line.others inText
    have carriageReturn : line.words.getLast? ≠ some '\r' := by
      intro last
      exact absurd (line.isTrimmed.last '\r' (Option.mem_def.2 last)) (by decide)
    have text : keptExcludes (line :: lines) =
        line.words ++ (keptBreak line.lineBreak ++ keptExcludes lines) := by
      simp [keptExcludes]
    rw [text, excludeRules_append lineFeed carriageReturn, excludeRule?_words, ih]
    rfl

/-! ## Statements -/

theorem isBlank_eq_false_of_isKeywordChar {c : Char} (h : isKeywordChar c = true) :
    isBlank c = false := by
  have parts : (c.isAlphanum = true ∨ c = '_') ∨ c = '-' := by simpa [isKeywordChar] using h
  rcases parts with (alphanum | rfl) | rfl
  · obtain ⟨low, high⟩ := toNat_of_isAlphanum alphanum
    exact isBlank_eq_false_of_toNat (by omega) high
  · decide
  · decide

/-- A statement gives the coordinates of its notation the keyword and the rules of its block. -/
theorem declarations_of_parts (kind : Kind) {s before spec : List Char} {block : Option (List Char)}
    (stop : ∀ c ∈ s.head?, isKeywordChar c = false) (parts : splitBlock 0 none s = (before, block))
    (bare : trim (stripParentheses (trim before)) = spec) (nonempty : spec ≠ []) :
    declarations (kind.chars ++ s) =
      (coordinates spec).map (dependency kind ((block.map excludeRules).getD [])) := by
  obtain ⟨keyword, behind⟩ : (kind.chars ++ s).takeWhile isKeywordChar = kind.chars ∧
      (kind.chars ++ s).dropWhile isKeywordChar = s := by
    rw [List.takeWhile_append_of_pos kind.inKind, List.dropWhile_append_of_pos kind.inKind]
    cases s with
    | nil => simp
    | cons c s => simp [stop c rfl]
  have named : kind.name ≠ "" := ofList_ne_empty kind.nonempty
  have declares : controlKeywords.contains kind.name = false := by
    simpa [Kind.name] using kind.notControl
  have written : spec.isEmpty = false := by simpa using nonempty
  simp only [declarations, keyword, behind, parts, bare]
  rw [← Kind.name, declares, written]
  simp [named, dependency]

theorem flat_of_isIndent {s : List Char} (h : ∀ c ∈ s, isIndent c = true) : Flat isPlain s :=
  flat_of_forall fun c hc => isPlain_of_inArgument (inArgument_of_isIndent (h c hc))

/-- Behind a keyword and blanks stands a notation without parentheses and block. -/
theorem declarations_gap (kind : Kind) (gap : Gap) {spec : List Char} (flat : Flat isPlain spec)
    (trimmed : IsTrimmed spec) (nonempty : spec ≠ []) (bare : stripParentheses spec = spec) :
    declarations (kind.chars ++ (gap.chars ++ spec)) =
      (coordinates spec).map (dependency kind []) := by
  obtain ⟨g, blanks, same⟩ := List.exists_cons_of_ne_nil gap.nonempty
  have stop : ∀ c ∈ (gap.chars ++ spec).head?, isKeywordChar c = false := by
    have blank := gap.blanks g (by simp [same])
    intro c hc
    have : c = g := by simpa [same] using hc.symm
    subst this
    rcases eq_of_isIndent blank with rfl | rfl <;> decide
  have parts : splitBlock 0 none (gap.chars ++ spec) = (gap.chars ++ spec, none) := by
    have whole := splitBlock_flat ((flat_of_isIndent gap.blanks).append flat) 0 []
    simpa [splitBlock] using whole
  refine declarations_of_parts kind stop parts ?_ nonempty
  rw [trimmed.trim_before nonempty fun c hc => isBlank_of_isIndent (gap.blanks c hc), bare,
    trimmed.trim_eq]

/-- Parentheses around a flat text hide it from the search for a block. -/
theorem splitBlock_parentheses {s : List Char} (flat : Flat isPlain s) (r : List Char) :
    splitBlock 0 none ('(' :: (s ++ ')' :: r)) =
      ('(' :: (s ++ ')' :: (splitBlock 0 none r).1), (splitBlock 0 none r).2) := by
  have opening : ∀ t, splitBlock 0 none ('(' :: t) =
      ('(' :: (splitBlock 1 none t).1, (splitBlock 1 none t).2) := fun t => rfl
  have closing : ∀ t, splitBlock 1 none (')' :: t) =
      (')' :: (splitBlock 0 none t).1, (splitBlock 0 none t).2) := fun t => rfl
  rw [opening, splitBlock_flat flat, closing]

/-- The coordinate of a call is its only argument, whatever block follows it. -/
theorem declarations_call (kind : Kind) (quoted : Quoted) {s blanks : List Char}
    {block : Option (List Char)} (blank : ∀ c ∈ blanks, isBlank c = true)
    (parts : splitBlock 0 none s = (blanks, block)) :
    declarations (kind.chars ++ '(' :: (quoted.text ++ ')' :: s)) =
      [dependency kind ((block.map excludeRules).getD []) quoted.content.coordinate] := by
  have call : IsTrimmed ('(' :: (quoted.text ++ [')'])) :=
    .of_endsIn (forall_mem_head? (by decide) _) (endsIn_concat (by decide) ('(' :: quoted.text))
  have single : coordinates quoted.text = [quoted.content.coordinate] := by
    have list := coordinates_listText quoted []
    rwa [listText, List.flatMap_nil, List.append_nil] at list
  have stop : ∀ c ∈ ('(' :: (quoted.text ++ ')' :: s)).head?, isKeywordChar c = false :=
    forall_mem_head? (by decide) _
  have before : splitBlock 0 none ('(' :: (quoted.text ++ ')' :: s)) =
      (('(' :: (quoted.text ++ [')'])) ++ blanks, block) := by
    rw [splitBlock_parentheses quoted.flat, parts]
    simp
  have bare : trim (stripParentheses (trim (('(' :: (quoted.text ++ [')'])) ++ blanks))) =
      quoted.text := by
    rw [call.trim_behind (List.cons_ne_nil _ _) blank, stripParentheses_flat quoted.flat,
      quoted.isTrimmed.trim_eq]
  rw [declarations_of_parts kind stop before bare quoted.text_ne_nil, single]
  rfl

/-- Every form of a statement gives exactly the dependencies that it declares. -/
theorem declarations_kept (statement : Statement) :
    declarations statement.kept = statement.declared := by
  cases statement with
  | listed kind gap first others =>
    have declared := declarations_gap kind gap (flat_listText first others)
      (isTrimmed_listText first others) (List.cons_ne_nil _ _)
      (stripParentheses_listText first others)
    rw [coordinates_listText, List.map_map] at declared
    exact declared
  | call kind coordinate =>
    have parts : splitBlock 0 none [] = ([], none) := rfl
    exact declarations_call kind coordinate (fun c hc => absurd hc List.not_mem_nil) parts
  | named kind gap group name version =>
    obtain ⟨first, others, text⟩ := exists_namedText group name version
    have flat := (flat_attributesText first others).mono fun c => isPlain_of_inLine
    have declared := declarations_gap kind gap flat
      (isTrimmed_attributesText first others) (attributesText_ne_nil first others)
      (stripParentheses_attributesText first others)
    rw [← text, coordinates_namedText] at declared
    exact declared
  | excluding kind coordinate blanks lineBreak first others indent =>
    have block : splitBlock 0 none (blanks.1 ++ '{' ::
        (keptBreak lineBreak ++ keptExcludes (first :: others) ++ ['}'])) =
        (blanks.1, some (keptBreak lineBreak ++ keptExcludes (first :: others))) := by
      rw [splitBlock_flat (flat_of_isIndent blanks.2)]
      simp [splitBlock, inLiteral, isQuote]
    have rules : excludeRules (keptBreak lineBreak ++ keptExcludes (first :: others)) =
        (first :: others).map ExcludeLine.rule := by
      rw [excludeRules_keptBreak, excludeRules_keptExcludes]
    have declared := declarations_call kind coordinate
      (fun c hc => isBlank_of_isIndent (blanks.2 c hc)) block
    rw [Option.map_some, Option.getD_some, rules] at declared
    exact declared

end BuildScript.Dependencies
