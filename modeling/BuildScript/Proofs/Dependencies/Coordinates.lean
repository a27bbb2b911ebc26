import BuildScript.Proofs.Attributes
import BuildScript.Proofs.Dependencies.Arguments
import BuildScript.Proofs.Dependencies.Syntax

/-!
# What a notation says

The coordinates of a notation in each of its forms: quoted coordinates with commas between them, and
named attributes.  A line break inside a notation has become line feeds by then.
-/

namespace BuildScript.Dependencies

open Text Grammar Unicode

/-! ## Kept line breaks -/

/-- What is kept of a line break inside a statement. -/
def keptBreak : LineBreak → List Char
  | .lineFeed => ['\n']
  | .carriageReturn => ['\n']
  | .both => ['\n', '\n']

theorem eq_lineFeed_of_mem_keptBreak {lineBreak : LineBreak} {c : Char}
    (h : c ∈ keptBreak lineBreak) : c = '\n' := by
  cases lineBreak <;> simpa [keptBreak] using h

/-- The blanks that are kept behind a comma. -/
def Comma.keptBlanks (comma : Comma) : List Char :=
  comma.blanks.1 ++ match comma.lineBreak with
    | none => []
    | some (lineBreak, _) => keptBreak lineBreak

/-! ## Coordinates -/

theorem run?_append {isMember : Char → Bool} {s rest : List Char} (nonempty : s ≠ [])
    (inside : ∀ c ∈ s, isMember c = true) (stop : ∀ c ∈ rest.head?, isMember c = false) :
    run? isMember (s ++ rest) = some (s, rest) := by
  have taken : (s ++ rest).takeWhile isMember = s := by
    rw [List.takeWhile_append_of_pos inside]
    cases rest with
    | nil => simp
    | cons c rest => simp [stop c rfl]
  have left : (s ++ rest).dropWhile isMember = rest := by
    rw [List.dropWhile_append_of_pos inside]
    cases rest with
    | nil => rfl
    | cons c rest => simp [stop c rfl]
  obtain ⟨c, r, same⟩ := List.exists_cons_of_ne_nil nonempty
  rw [run?, taken, left, same]

theorem part?_append {part : Run isPartChar} (nonempty : part.1 ≠ []) (rest : List Char) :
    part? (part.1 ++ ':' :: rest) = some (part.1, rest) := by
  rw [part?, run?_append nonempty part.2 (forall_mem_head? (by decide) rest)]
  rfl

theorem coordinateHere?_chars (text : CoordinateText) :
    coordinateHere? text.chars = some text.coordinate := by
  have version : run? isVersionChar text.version.1 = some (text.version.1, []) := by
    have stop : ∀ c ∈ ([] : List Char).head?, isVersionChar c = false := fun c hc => by cases hc
    have whole := run?_append text.versioned text.version.2 stop
    rwa [List.append_nil] at whole
  simp [coordinateHere?, CoordinateText.chars, CoordinateText.coordinate,
    part?_append text.grouped, part?_append text.named, version]

theorem findCoordinate?_chars (text : CoordinateText) :
    findCoordinate? text.chars = some text.coordinate := by
  have here := coordinateHere?_chars text
  obtain ⟨c, r, same⟩ : ∃ c r, text.chars = c :: r :=
    List.exists_cons_of_ne_nil (by simp [CoordinateText.chars])
  rw [same] at here ⊢
  rw [findCoordinate?, here]
  rfl

theorem CoordinateText.inLiteral (text : CoordinateText) {c : Char} (h : c ∈ text.chars) :
    isQuote c = false ∧ isLineBreak c = false := by
  have parts : c ∈ text.group.1 ∨ c = ':' ∨ c ∈ text.name.1 ∨ c = ':' ∨ c ∈ text.version.1 := by
    simpa [CoordinateText.chars] using h
  rcases parts with group | rfl | name | rfl | version
  · exact inLiteral_of_isVersionChar (isVersionChar_of_isPartChar (text.group.2 c group))
  · decide
  · exact inLiteral_of_isVersionChar (isVersionChar_of_isPartChar (text.name.2 c name))
  · decide
  · exact inLiteral_of_isVersionChar (text.version.2 c version)

theorem Quoted.flat {isMember : Char → Bool} (quoted : Quoted) : Flat isMember quoted.text := by
  apply flat_literal quoted.quote.2
  intro c hc
  obtain ⟨notQuote, sameLine⟩ := quoted.content.inLiteral hc
  refine ⟨?_, sameLine⟩
  rintro rfl
  rw [quoted.quote.2] at notQuote
  cases notQuote

theorem Quoted.isTrimmed (quoted : Quoted) : IsTrimmed quoted.text :=
  isTrimmed_literal quoted.quote.2 quoted.content.chars

theorem Quoted.text_ne_nil (quoted : Quoted) : quoted.text ≠ [] := List.cons_ne_nil _ _

theorem quotedCoordinate?_text (quoted : Quoted) :
    quotedCoordinate? quoted.text = some quoted.content.coordinate := by
  rw [quotedCoordinate?, quoted.isTrimmed.trim_eq, Quoted.text, unquote_literal quoted.quote.2,
    findCoordinate?_chars]

/-- Behind a comma stand blanks and, where the line is broken, a line feed. -/
theorem Comma.isIndent_or_eq_of_mem (comma : Comma) {c : Char} (h : c ∈ comma.keptBlanks) :
    isIndent c = true ∨ c = '\n' := by
  rcases List.mem_append.1 h with blank | broken
  · exact .inl (comma.blanks.2 c blank)
  · cases same : comma.lineBreak with
    | none => simp [same] at broken
    | some lines =>
      rw [same] at broken
      exact .inr (eq_lineFeed_of_mem_keptBreak broken)

theorem Comma.isBlank_of_mem (comma : Comma) {c : Char} (h : c ∈ comma.keptBlanks) :
    isBlank c = true := by
  rcases comma.isIndent_or_eq_of_mem h with indent | rfl
  · exact isBlank_of_isIndent indent
  · decide

theorem Comma.inArgument_of_mem (comma : Comma) {c : Char} (h : c ∈ comma.keptBlanks) :
    inArgument c = true := by
  rcases comma.isIndent_or_eq_of_mem h with indent | rfl
  · exact inArgument_of_isIndent indent
  · decide

/-- Quoted coordinates with commas between them. -/
def listText (first : Quoted) (others : List (Comma × Quoted)) : List Char :=
  first.text ++ others.flatMap fun (comma, quoted) => ',' :: (comma.keptBlanks ++ quoted.text)

theorem listText_eq_joined (first : Quoted) (others : List (Comma × Quoted)) :
    listText first others = joined [','] (first.text ::
      others.map fun (comma, quoted) => comma.keptBlanks ++ quoted.text) := by
  rw [joined_eq_append_flatMap, List.flatMap_map]
  rfl

theorem endsIn_listText (first : Quoted) (others : List (Comma × Quoted)) :
    EndsIn (isQuote · = true) (listText first others) := by
  have each : ∀ quoted : Quoted, EndsIn (isQuote · = true) quoted.text := fun quoted =>
    endsIn_literal quoted.quote.2 quoted.content.chars
  refine (each first).append_flatMap ?_
  rintro ⟨comma, quoted⟩ -
  exact (each quoted).append (',' :: comma.keptBlanks)

theorem isTrimmed_listText (first : Quoted) (others : List (Comma × Quoted)) :
    IsTrimmed (listText first others) :=
  .of_endsIn first.isTrimmed.first
    ((endsIn_listText first others).mono fun _ => isBlank_of_isQuote)

theorem stripParentheses_listText (first : Quoted) (others : List (Comma × Quoted)) :
    stripParentheses (listText first others) = listText first others := by
  have paren : first.quote.1 ≠ '(' := by
    rcases eq_of_isQuote first.quote.2 with same | same <;> rw [same] <;> decide
  rw [listText, Quoted.text, List.cons_append, stripParentheses_of_ne paren]

theorem flat_listText (first : Quoted) (others : List (Comma × Quoted)) :
    Flat isPlain (listText first others) := by
  refine first.flat.append (Flat.flatMap ?_)
  rintro ⟨comma, quoted⟩ -
  have blanks : Flat isPlain comma.keptBlanks :=
    flat_of_forall fun c hc => isPlain_of_inArgument (comma.inArgument_of_mem hc)
  exact .cons (by decide) (blanks.append quoted.flat)

theorem coordinates_listText (first : Quoted) (others : List (Comma × Quoted)) :
    coordinates (listText first others) =
      (first :: others.map Prod.snd).map fun quoted => quoted.content.coordinate := by
  have arguments : splitArguments (listText first others) =
      (first :: others.map Prod.snd).map Quoted.text := by
    have notBlank :=
      (isTrimmed_listText first others).allBlank_eq_false (by simp [listText, Quoted.text])
    rw [listText_eq_joined] at notBlank ⊢
    rw [splitArguments_joined (List.cons_ne_nil _ _) ?_ notBlank]
    · simp only [List.map_cons, List.map_map, first.isTrimmed.trim_eq, List.cons.injEq, true_and]
      refine List.map_congr_left ?_
      rintro ⟨comma, quoted⟩ -
      exact quoted.isTrimmed.trim_before quoted.text_ne_nil fun c hc => comma.isBlank_of_mem hc
    · intro piece member
      rcases List.mem_cons.1 member with rfl | later
      · exact first.flat
      · obtain ⟨⟨comma, quoted⟩, -, rfl⟩ := List.mem_map.1 later
        exact (flat_of_forall fun c hc => comma.inArgument_of_mem hc).append quoted.flat
  have found : ∀ list : List Quoted, (list.map Quoted.text).mapM quotedCoordinate? =
      some (list.map fun quoted => quoted.content.coordinate) := by
    intro list
    induction list with
    | nil => rfl
    | cons quoted list ih =>
      rw [List.map_cons, List.mapM_cons, quotedCoordinate?_text, ih]
      rfl
  rw [coordinates, arguments, found]
  rfl

/-! ## Attributes -/

theorem ascii_of_mem_identifier {s : List Char} (h : isIdentifier s = true) {c : Char}
    (member : c ∈ s) : c.isAlphanum = true ∨ c = '_' := by
  cases s with
  | nil => cases member
  | cons first r =>
    obtain ⟨start, others⟩ := Bool.and_eq_true_iff.1 h
    rcases List.mem_cons.1 member with rfl | later
    · have parts : c.isAlpha = true ∨ c = '_' := by simpa [isIdentifierStart] using start
      exact parts.imp_left fun alpha => by simp [Char.isAlphanum, alpha]
    · simpa using List.all_eq_true.1 others c later

/-- The characters of a name are neither blank nor of any use to a scanner. -/
theorem plain_of_mem_identifier {s : List Char} (h : isIdentifier s = true) {c : Char}
    (member : c ∈ s) : isBlank c = false ∧ c ≠ ':' ∧ inArgument c = true := by
  rcases ascii_of_mem_identifier h member with alphanum | rfl
  · obtain ⟨low, high⟩ := toNat_of_isAlphanum alphanum
    have other : ∀ d : Char, d.isAlphanum = false → c ≠ d := by
      rintro d outside rfl
      rw [alphanum] at outside
      cases outside
    refine ⟨isBlank_eq_false_of_toNat (by omega) high, other ':' (by decide), ?_⟩
    simp [inArgument, isPlain, isQuote, isBracket, other _ (by decide : '"'.isAlphanum = false),
      other _ (by decide : '\''.isAlphanum = false), other _ (by decide : '('.isAlphanum = false),
      other _ (by decide : ')'.isAlphanum = false), other _ (by decide : '['.isAlphanum = false),
      other _ (by decide : ']'.isAlphanum = false), other _ (by decide : '\x7b'.isAlphanum = false),
      other _ (by decide : '\x7d'.isAlphanum = false), other _ (by decide : ','.isAlphanum = false)]
  · decide

theorem Attribute.exists_cons (named : Attribute) :
    ∃ c r, named.name = c :: r ∧ isIdentifierStart c = true := by
  have identifier := named.identifier
  cases same : named.name with
  | nil => rw [same] at identifier; cases identifier
  | cons c r =>
    rw [same] at identifier
    exact ⟨c, r, rfl, (Bool.and_eq_true_iff.1 identifier).1⟩

theorem Attribute.isTrimmed_name (named : Attribute) : IsTrimmed named.name where
  first _ hc := (plain_of_mem_identifier named.identifier (List.mem_of_mem_head? hc)).1
  last _ hc := (plain_of_mem_identifier named.identifier (List.mem_of_getLast? hc)).1

theorem trim_space_cons {s : List Char} (trimmed : IsTrimmed s) (nonempty : s ≠ []) :
    trim (' ' :: s) = s :=
  trimmed.trim_before nonempty (show ∀ c ∈ [' '], isBlank c = true by decide)

theorem Attribute.flat_value (named : Attribute) {isMember : Char → Bool} :
    Flat isMember ('\'' :: (named.value ++ ['\''])) :=
  flat_literal (by decide) named.inLiteral

theorem Attribute.flat (named : Attribute) : Flat inArgument named.text := by
  have name : Flat inArgument named.name :=
    flat_of_forall fun c hc => (plain_of_mem_identifier named.identifier hc).2.2
  exact name.append (.cons (by decide) (.cons (by decide) named.flat_value))

theorem Attribute.endsIn (named : Attribute) : EndsIn (isQuote · = true) named.text := by
  have literal := endsIn_literal (by decide : isQuote '\'' = true) named.value
  have text : named.text =
      (named.name ++ [':', ' ']) ++ '\'' :: (named.value ++ ['\'']) := by simp [Attribute.text]
  rw [text]
  exact literal.append _

theorem Attribute.isTrimmed (named : Attribute) : IsTrimmed named.text := by
  refine .of_endsIn ?_ (named.endsIn.mono fun _ => isBlank_of_isQuote)
  intro c hc
  obtain ⟨first, r, same, start⟩ := named.exists_cons
  have : c = first := by simpa [Attribute.text, same] using hc.symm
  subst this
  exact (plain_of_mem_identifier named.identifier (by simp [same])).1

theorem Attribute.text_ne_nil (named : Attribute) : named.text ≠ [] := by simp [Attribute.text]

theorem namedArgument?_text (named : Attribute) :
    namedArgument? named.text = some named.pair := by
  have colon : ':' ∉ named.name := fun member =>
    (plain_of_mem_identifier named.identifier member).2.1 rfl
  have literal : trim (' ' :: '\'' :: (named.value ++ ['\''])) = '\'' :: (named.value ++ ['\'']) := by
    have trimmed := isTrimmed_literal (by decide : isQuote '\'' = true) named.value
    exact trim_space_cons trimmed (List.cons_ne_nil _ _)
  rw [namedArgument?, Attribute.text, cut?_append colon]
  simp only [named.isTrimmed_name.trim_eq, named.identifier, if_true, literal]
  rw [unquote_literal (by decide)]
  rfl

theorem attributesText_eq_joined (first : Attribute) (others : List Attribute) :
    attributesText first others =
      joined [','] (first.text :: others.map fun named => ' ' :: named.text) := by
  rw [joined_eq_append_flatMap, List.flatMap_map]
  rfl

theorem endsIn_attributesText (first : Attribute) (others : List Attribute) :
    EndsIn (isQuote · = true) (attributesText first others) :=
  first.endsIn.append_flatMap fun named _ => named.endsIn.append [',', ' ']

theorem isTrimmed_attributesText (first : Attribute) (others : List Attribute) :
    IsTrimmed (attributesText first others) := by
  refine .of_endsIn ?_ ((endsIn_attributesText first others).mono fun _ => isBlank_of_isQuote)
  intro c hc
  obtain ⟨d, r, same⟩ := List.exists_cons_of_ne_nil first.text_ne_nil
  refine first.isTrimmed.first c ?_
  simpa [attributesText, same] using hc

theorem attributesText_ne_nil (first : Attribute) (others : List Attribute) :
    attributesText first others ≠ [] := by
  simp [attributesText, first.text_ne_nil]

theorem stripParentheses_attributesText (first : Attribute) (others : List Attribute) :
    stripParentheses (attributesText first others) = attributesText first others := by
  obtain ⟨c, r, same, start⟩ := first.exists_cons
  have paren : c ≠ '(' := by rintro rfl; exact absurd start (by decide)
  have text : ∃ rest, attributesText first others = c :: rest := by
    simp [attributesText, Attribute.text, same]
  obtain ⟨rest, text⟩ := text
  rw [text, stripParentheses_of_ne paren]

theorem flat_attributesText (first : Attribute) (others : List Attribute) :
    Flat inLine (attributesText first others) := by
  have each : ∀ named : Attribute, Flat inLine named.text := by
    intro named
    have name : Flat inLine named.name := by
      apply flat_of_forall
      intro c hc
      obtain ⟨notBlank, -, argument⟩ := plain_of_mem_identifier named.identifier hc
      exact inLine_of_inArgument argument notBlank
    exact name.append (.cons (by decide) (.cons (by decide) named.flat_value))
  exact (each first).append
    (Flat.flatMap fun named _ => .cons (by decide) (.cons (by decide) (each named)))

theorem splitArguments_attributesText (first : Attribute) (others : List Attribute) :
    splitArguments (attributesText first others) = (first :: others).map Attribute.text := by
  have notBlank := (isTrimmed_attributesText first others).allBlank_eq_false
    (attributesText_ne_nil first others)
  rw [attributesText_eq_joined] at notBlank ⊢
  rw [splitArguments_joined (List.cons_ne_nil _ _) ?_ notBlank]
  · simp only [List.map_cons, List.map_map, first.isTrimmed.trim_eq, List.cons.injEq, true_and]
    refine List.map_congr_left fun named _ => ?_
    exact trim_space_cons named.isTrimmed named.text_ne_nil
  · intro piece member
    rcases List.mem_cons.1 member with rfl | later
    · exact first.flat
    · obtain ⟨named, -, rfl⟩ := List.mem_map.1 later
      exact .cons (by decide) named.flat

theorem namedArguments_attributesText (first : Attribute) (others : List Attribute) :
    namedArguments (attributesText first others) =
      Attributes.ofPairs ((first :: others).map Attribute.pair) := by
  rw [namedArguments, splitArguments_attributesText, List.filterMap_map]
  congr 1
  have each : (namedArgument? ∘ Attribute.text) = some ∘ Attribute.pair :=
    funext namedArgument?_text
  rw [each, List.filterMap_eq_map]

/-! ## Notations without a coordinate -/

theorem part?_eq_none {s : List Char} (stop : ∀ c ∈ s.head?, isPartChar c = false) :
    part? s = none := by
  cases s with
  | nil => rfl
  | cons c r => simp [part?, run?, stop c rfl]

theorem coordinateHere?_eq_none {s : List Char}
    (h : ∀ rest, s.dropWhile isPartChar = ':' :: rest → part? rest = none) :
    coordinateHere? s = none := by
  cases found : part? s with
  | none => simp [coordinateHere?, found]
  | some parts =>
    obtain ⟨group, rest⟩ := parts
    have colon : s.dropWhile isPartChar = ':' :: rest := by
      unfold part? at found
      split at found
      · next same =>
        unfold run? at same
        split at same
        · cases same
        · simp only [Option.some.injEq, Prod.mk.injEq] at same found
          rw [same.2, found.2]
      · cases found
    simp [coordinateHere?, found, h rest colon]

theorem eq_of_dropWhile_eq_colon {s r rest : List Char} (h : ':' ∉ s)
    (same : (s ++ ':' :: r).dropWhile isPartChar = ':' :: rest) : rest = r := by
  induction s with
  | nil =>
    have stop : isPartChar ':' = false := by decide
    simpa [stop] using same.symm
  | cons c s ih =>
    rw [List.cons_append, List.dropWhile_cons] at same
    split at same
    · exact ih (fun member => h (List.mem_cons_of_mem _ member)) same
    · exact absurd (List.mem_cons.2 (.inl (List.cons.inj same).1.symm)) h

/-- A colon before a text that begins with no part and colon is in no coordinate, and neither is the
text before it. -/
theorem findCoordinate?_colon {s r : List Char} (h : ':' ∉ s) (behind : part? r = none) :
    findCoordinate? (s ++ ':' :: r) = findCoordinate? r := by
  have here : ∀ t, ':' ∉ t → coordinateHere? (t ++ ':' :: r) = none := by
    intro t outside
    apply coordinateHere?_eq_none
    intro rest same
    rwa [eq_of_dropWhile_eq_colon outside same]
  induction s with
  | nil =>
    have none := here [] h
    rw [List.nil_append] at none ⊢
    rw [findCoordinate?, none, Option.none_or]
  | cons d s ih =>
    have none := here (d :: s) h
    rw [List.cons_append] at none ⊢
    rw [findCoordinate?, none, Option.none_or, ih fun member => h (List.mem_cons_of_mem _ member)]

/-- A text without colons is in no coordinate if it does not end in a part. -/
theorem findCoordinate?_append {s : List Char} (h : ':' ∉ s)
    (stop : ∀ c ∈ s.getLast?, isPartChar c = false) (r : List Char) :
    findCoordinate? (s ++ r) = findCoordinate? r := by
  induction s with
  | nil => rfl
  | cons d s ih =>
    have here : coordinateHere? (d :: s ++ r) = none := by
      apply coordinateHere?_eq_none
      intro rest same
      have split := List.takeWhile_append_dropWhile (p := isPartChar) (l := d :: s)
      cases left : (d :: s).dropWhile isPartChar with
      | nil =>
        rw [left, List.append_nil] at split
        have parts := List.all_eq_true.1 (List.all_takeWhile (p := isPartChar) (l := d :: s))
        rw [split] at parts
        have last := parts _ (List.getLast_mem (List.cons_ne_nil d s))
        rw [stop _ (List.getLast?_eq_some_getLast _)] at last
        cases last
      | cons c t =>
        rw [List.dropWhile_append, left] at same
        have colon : c = ':' := (List.cons.inj same).1
        rw [left, colon] at split
        exact absurd (split ▸ List.mem_append_right _ List.mem_cons_self) h
    have ends : ∀ c ∈ s.getLast?, isPartChar c = false := by
      intro c last
      exact stop c (by rw [List.getLast?_cons, Option.mem_def.1 last]; rfl)
    rw [List.cons_append] at here ⊢
    rw [findCoordinate?, here, Option.none_or,
      ih (fun member => h (List.mem_cons_of_mem _ member)) ends]

theorem findCoordinate?_of_not_mem {s : List Char} (h : ':' ∉ s) : findCoordinate? s = none := by
  induction s with
  | nil => rfl
  | cons c s ih =>
    have here : coordinateHere? (c :: s) = none := by
      apply coordinateHere?_eq_none
      intro rest same
      have member : ':' ∈ (c :: s).dropWhile isPartChar := by simp [same]
      exact absurd ((List.dropWhile_suffix isPartChar).subset member) h
    rw [findCoordinate?, here, Option.none_or, ih fun member => h (List.mem_cons_of_mem _ member)]

theorem fromProject?_of_not_mem {s : List Char} (h : '(' ∉ s) : fromProject? s = none := by
  induction s with
  | nil => rfl
  | cons c s ih =>
    have here : after? "project(".toList (c :: s) = none := by
      cases found : after? "project(".toList (c :: s) with
      | none => rfl
      | some rest =>
        rw [after?_eq_some_iff.1 found] at h
        exact absurd (by simp) h
    rw [fromProject?, here]
    exact ih fun member => h (List.mem_cons_of_mem _ member)

/-! ## Named parts -/

/-- The value of the attribute is part of a coordinate. -/
def Attribute.IsPart (named : Attribute) : Prop := ∀ c ∈ named.value, isPartChar c = true

theorem Attribute.IsPart.not_mem {named : Attribute} (h : named.IsPart) :
    ':' ∉ named.value ∧ '(' ∉ named.value := by
  constructor <;> intro member <;> exact absurd (h _ member) (by decide)

theorem findCoordinate?_attributesText {first : Attribute} {others : List Attribute}
    (part : first.IsPart) (parts : ∀ named ∈ others, named.IsPart) {s : List Char}
    (h : ':' ∉ s) : findCoordinate? (s ++ attributesText first others) = none := by
  have name : ':' ∉ first.name := fun member =>
    (plain_of_mem_identifier first.identifier member).2.1 rfl
  have value := part.not_mem.1
  have text : s ++ attributesText first others = (s ++ first.name) ++ ':' :: ' ' ::
      ('\'' :: (first.value ++ '\'' :: others.flatMap fun named => ',' :: ' ' :: named.text)) := by
    simp [attributesText, Attribute.text]
  rw [text, findCoordinate?_colon (by simp [h, name])
    (part?_eq_none (forall_mem_head? (by decide) _))]
  cases others with
  | nil => exact findCoordinate?_of_not_mem (by simp [value])
  | cons next others =>
    have later : ∀ named ∈ others, named.IsPart := fun named member => parts named (by simp [member])
    have onward := findCoordinate?_attributesText (parts next (by simp)) later
      (show ':' ∉ ' ' :: '\'' :: (first.value ++ ['\'', ',', ' ']) by simp [value])
    simpa [attributesText] using onward

theorem not_mem_attributesText {first : Attribute} {others : List Attribute}
    (parts : ∀ named ∈ first :: others, named.IsPart) : '(' ∉ attributesText first others := by
  have each : ∀ named ∈ first :: others, '(' ∉ named.text := by
    intro named member
    have name : '(' ∉ named.name := fun inName =>
      absurd (plain_of_mem_identifier named.identifier inName).2.2 (by decide)
    simp [Attribute.text, name, (parts named member).not_mem.2]
  have others : ∀ named ∈ others, '(' ∉ ',' :: ' ' :: named.text := by
    intro named member
    simpa using each named (by simp [member])
  simpa [attributesText] using ⟨each first (by simp), by simpa using others⟩

theorem quotedCoordinate?_attributesText {first : Attribute} {others : List Attribute}
    (parts : ∀ named ∈ first :: others, named.IsPart) :
    quotedCoordinate? (attributesText first others) = none := by
  have later : ∀ named ∈ others, named.IsPart := fun named member => parts named (by simp [member])
  have found := findCoordinate?_attributesText (parts first (by simp)) later
    (show ':' ∉ [] from List.not_mem_nil)
  obtain ⟨c, r, same, start⟩ := first.exists_cons
  have notQuote : isQuote c = false := by
    have plain := (plain_of_mem_identifier first.identifier (by simp [same] : c ∈ first.name)).2.2
    exact (isPlain_iff.1 (Bool.and_eq_true_iff.1 plain).1).1
  have begins : ∃ rest, attributesText first others = c :: rest := by
    simp [attributesText, Attribute.text, same]
  obtain ⟨rest, begins⟩ := begins
  rw [quotedCoordinate?, (isTrimmed_attributesText first others).trim_eq, begins,
    unquote_of_not_isQuote notQuote, ← begins]
  exact found

/-- Named parts are no list of coordinates, no coordinate and no project. -/
theorem coordinates_attributesText {first : Attribute} {others : List Attribute}
    (parts : ∀ named ∈ first :: others, named.IsPart) {coordinate : Coordinate}
    (named : namedCoordinate? (attributesText first others) = some coordinate) :
    coordinates (attributesText first others) = [coordinate] := by
  have alone : quotedCoordinate? first.text = none := by
    have single : quotedCoordinate? (attributesText first []) = none := by
      apply quotedCoordinate?_attributesText
      intro named member
      rw [List.mem_singleton.1 member]
      exact parts first (by simp)
    simpa [attributesText] using single
  have list : (splitArguments (attributesText first others)).mapM quotedCoordinate? = none := by
    rw [splitArguments_attributesText, List.map_cons, List.mapM_cons, alone]
    rfl
  rw [coordinates, list, quotedCoordinate?_attributesText parts,
    fromProject?_of_not_mem (not_mem_attributesText parts), named]
  rfl

theorem isPart_partAttribute {name : List Char} (identifier : isIdentifier name = true)
    (value : Run isPartChar) : (partAttribute name identifier value).IsPart := value.2

theorem exists_namedText (group : Option (Run isPartChar)) (name : Run isPartChar)
    (version : Option (Run isPartChar)) :
    ∃ first others, namedText group name version = attributesText first others := by
  cases group <;> exact ⟨_, _, rfl⟩

theorem coordinates_namedText (group : Option (Run isPartChar)) (name : Run isPartChar)
    (version : Option (Run isPartChar)) :
    coordinates (namedText group name version) =
      [⟨partText group, String.ofList name.1, partText version⟩] := by
  have nameIsPart : (nameAttribute name).IsPart := isPart_partAttribute _ name
  have versionIsPart : ∀ named ∈ (version.map versionAttribute).toList, named.IsPart := by
    intro named member
    obtain ⟨part, -, rfl⟩ : ∃ part, version = some part ∧ versionAttribute part = named := by
      simpa using member
    exact isPart_partAttribute _ part
  cases group with
  | none =>
    apply coordinates_attributesText
    · intro named member
      rcases List.mem_cons.1 member with rfl | later
      · exact nameIsPart
      · exact versionIsPart named later
    · rw [namedCoordinate?, namedArguments_attributesText]
      cases version <;>
        simp [Attributes.ofPairs, Attributes.lookup_set, Attribute.pair, nameAttribute,
          versionAttribute, partAttribute, partText]
  | some group =>
    apply coordinates_attributesText
    · intro named member
      rcases List.mem_cons.1 member with rfl | member
      · exact isPart_partAttribute _ group
      · rcases List.mem_cons.1 member with rfl | later
        · exact nameIsPart
        · exact versionIsPart named later
    · rw [namedCoordinate?, namedArguments_attributesText]
      cases version <;>
        simp [Attributes.ofPairs, Attributes.lookup_set, Attribute.pair, groupAttribute,
          nameAttribute, versionAttribute, partAttribute, partText]

end BuildScript.Dependencies
