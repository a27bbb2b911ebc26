import BuildScript.Proofs.LineBreaks.Text
import BuildScript.Proofs.Comments.Declarations

/-!
# Declarations in statements with repeated line feeds

A statement of a dependencies block that runs over several lines keeps a line feed for each
character of its line breaks.  With every line feed repeated it declares the same dependencies, with
the line feeds of their texts repeated.
-/

namespace BuildScript

open Text Unicode Dependencies

variable {s r : List Char} {c : Char} {quote : Option Char}

/-! ## Texts -/

theorem doubled_lineFeed (s : List Char) : doubled ('\n' :: s) = '\n' :: '\n' :: doubled s := rfl

theorem doubled_cons (h : c ≠ '\n') (s : List Char) : doubled (c :: s) = c :: doubled s :=
  Breaks.twice.write_cons h s

theorem padded_doubled (s : List Char) : Padded s (doubled s) := by
  induction s with
  | nil => exact .nil
  | cons c s ih =>
    by_cases lineFeed : c = '\n'
    · subst lineFeed
      exact .again (.cons '\n' ih)
    · rw [doubled_cons lineFeed]
      exact .cons c ih

theorem doubled_eq_self (plain : '\n' ∉ s) : doubled s = s := Breaks.twice.write_eq_self plain

/-! ## Scanners -/

theorem prependToFirst_doubled (h : c ≠ '\n') (pieces : List (List Char)) :
    prependToFirst c (pieces.map doubled) = (prependToFirst c pieces).map doubled := by
  cases pieces with
  | nil => rw [List.map_nil, prependToFirst, List.map_singleton, doubled_cons h]; rfl
  | cons piece pieces =>
    rw [List.map_cons, prependToFirst, prependToFirst, List.map_cons, doubled_cons h]

theorem prependToFirst_lineFeed_doubled (pieces : List (List Char)) :
    prependToFirst '\n' (prependToFirst '\n' (pieces.map doubled)) =
      (prependToFirst '\n' pieces).map doubled := by
  cases pieces <;> rfl

theorem argumentPieces_doubled (depth : Nat) (valid : quote ≠ some '\n') (s : List Char) :
    argumentPieces depth quote (doubled s) = (argumentPieces depth quote s).map doubled := by
  induction s generalizing depth quote with
  | nil => rfl
  | cons c s ih =>
    by_cases lineFeed : c = '\n'
    · subst lineFeed
      rw [doubled_lineFeed, argumentPieces_lineFeed valid, argumentPieces_lineFeed valid,
        argumentPieces_lineFeed valid, ih depth valid, prependToFirst_lineFeed_doubled]
    · rw [doubled_cons lineFeed, argumentPieces_cons, argumentPieces_cons]
      split
      · rw [ih 0 none_ne_lineFeed]
        rfl
      · rw [ih _ (quoteAfter_ne valid c), prependToFirst_doubled lineFeed]

theorem splitArguments_doubled (s : List Char) :
    splitArguments (doubled s) = (splitArguments s).map doubled := by
  have trimmed : ∀ piece, trim (doubled piece) = doubled (trim piece) := Breaks.twice.trim_write
  unfold splitArguments
  rw [show allBlank (doubled s) = allBlank s from Breaks.twice.allBlank_write s]
  split
  · rfl
  · rw [argumentPieces_doubled 0 none_ne_lineFeed, List.map_map, List.map_map]
    exact List.map_congr_left fun piece _ => trimmed piece

theorem stripParentheses_doubled (s : List Char) :
    stripParentheses (doubled s) = doubled (stripParentheses s) := by
  cases s with
  | nil => rfl
  | cons c s =>
    by_cases paren : c = '('
    · subst paren
      rw [doubled_cons (by decide), stripParentheses, stripParentheses,
        closesAtEnd_padded (padded_doubled s) 1 none_ne_lineFeed]
      split
      · next closes =>
        exact Breaks.twice.dropLast_write (getLast?_of_closesAtEnd closes) (by decide)
      · rfl
    · rw [stripParentheses_of_ne paren]
      by_cases lineFeed : c = '\n'
      · subst lineFeed
        exact stripParentheses_of_ne (by decide) _
      · rw [doubled_cons lineFeed, stripParentheses_of_ne paren]

theorem splitBlock_doubled (depth : Nat) (valid : quote ≠ some '\n') (s : List Char) :
    splitBlock depth quote (doubled s) =
      (doubled (splitBlock depth quote s).1, (splitBlock depth quote s).2.map doubled) := by
  induction s generalizing depth quote with
  | nil => rfl
  | cons c s ih =>
    by_cases lineFeed : c = '\n'
    · subst lineFeed
      rw [doubled_lineFeed, splitBlock_lineFeed valid, splitBlock_lineFeed valid,
        splitBlock_lineFeed valid, ih depth valid]
      rfl
    · rw [doubled_cons lineFeed, splitBlock_cons, splitBlock_cons]
      split
      · rw [(padded_doubled s).getLast?_eq]
        split
        · next last =>
          rw [show (doubled s).dropLast = doubled s.dropLast from
            Breaks.twice.dropLast_write (eq_of_beq last) (by decide)]
          rfl
        · rfl
      · rw [ih _ (quoteAfter_ne valid c)]
        exact Prod.ext (doubled_cons lineFeed _).symm rfl

/-! ## Coordinates -/

/-- The coordinate with the line feeds of its texts repeated. -/
def Coordinate.doubled (c : Coordinate) : Coordinate :=
  ⟨Breaks.twice.text c.group, Breaks.twice.text c.name, Breaks.twice.text c.version⟩

theorem run?_eq_some {isMember : Char → Bool} {run rest : List Char}
    (h : run? isMember s = some (run, rest)) : ∀ c ∈ run, isMember c = true := by
  unfold run? at h
  split at h
  · cases h
  · cases h
    exact List.all_eq_true.1 List.all_takeWhile

theorem part?_eq_some {part rest : List Char} (h : part? s = some (part, rest)) :
    ∀ c ∈ part, isPartChar c = true := by
  unfold part? at h
  split at h
  · next found =>
    cases h
    exact run?_eq_some found
  · cases h

/-- The parts of a coordinate in a text are runs of characters of a line. -/
theorem doubled_of_coordinateHere? {coordinate : Coordinate}
    (h : coordinateHere? s = some coordinate) : coordinate.doubled = coordinate := by
  have plain : ∀ {isMember : Char → Bool} {run : List Char}, isMember '\n' = false →
      (∀ c ∈ run, isMember c = true) →
        Breaks.twice.text (String.ofList run) = String.ofList run := by
    intro isMember run other members
    apply Breaks.text_eq_self
    rw [String.toList_ofList]
    intro lineFeed
    exact absurd (members '\n' lineFeed) (by simp [other])
  simp only [coordinateHere?, Option.bind_eq_bind, Option.bind_eq_some_iff] at h
  obtain ⟨⟨group, s₁⟩, hgroup, ⟨name, s₂⟩, hname, ⟨version, s₃⟩, hversion, same⟩ := h
  obtain rfl := Option.some.inj same
  simp only [Coordinate.doubled, plain (by decide) (part?_eq_some hgroup),
    plain (by decide) (part?_eq_some hname), plain (by decide) (run?_eq_some hversion)]

theorem doubled_of_findCoordinate? {coordinate : Coordinate}
    (h : findCoordinate? s = some coordinate) : coordinate.doubled = coordinate := by
  induction s with
  | nil => cases h
  | cons c s ih =>
    rw [findCoordinate?, Option.or_eq_some_iff] at h
    rcases h with here | ⟨-, later⟩
    · exact doubled_of_coordinateHere? here
    · exact ih later

theorem quotedCoordinate?_doubled (s : List Char) :
    quotedCoordinate? (doubled s) = (quotedCoordinate? s).map Coordinate.doubled := by
  rw [quotedCoordinate?_padded (padded_doubled s)]
  cases found : quotedCoordinate? s with
  | none => rfl
  | some coordinate => rw [Option.map_some, doubled_of_findCoordinate? found]

theorem mapM_quotedCoordinate?_doubled (pieces : List (List Char)) :
    (pieces.map doubled).mapM quotedCoordinate? =
      (pieces.mapM quotedCoordinate?).map (List.map Coordinate.doubled) := by
  induction pieces with
  | nil => rfl
  | cons piece pieces ih =>
    rw [List.map_cons, List.mapM_cons, List.mapM_cons, quotedCoordinate?_doubled, ih]
    cases quotedCoordinate? piece with
    | none => rfl
    | some coordinate =>
      cases pieces.mapM quotedCoordinate? with
      | none => rfl
      | some others => rfl

/-! ## Names and arguments -/

theorem fromProject?_doubled (s : List Char) :
    fromProject? (doubled s) = (fromProject? s).map doubled := by
  induction s with
  | nil => rfl
  | cons c s ih =>
    by_cases lineFeed : c = '\n'
    · subst lineFeed
      exact ih
    · have here : after? "project(".toList (doubled (c :: s)) =
          (after? "project(".toList (c :: s)).map doubled := Breaks.twice.after?_write (by decide) _
      rw [doubled_cons lineFeed] at here ⊢
      rw [fromProject?, fromProject?, here, Option.isSome_map]
      split
      · rw [Option.map_some, doubled_cons lineFeed]
      · exact ih

theorem callText_doubled (s call : List Char) :
    callText (doubled s) (doubled call) = doubled (callText s call) := by
  have closes : (doubled call).contains ')' = call.contains ')' := by
    rw [Bool.eq_iff_iff, List.contains_iff_mem, List.contains_iff_mem,
      (padded_doubled call).mem_iff]
  have inside : (doubled call).takeWhile (· != ')') = doubled (call.takeWhile (· != ')')) :=
    Breaks.twice.takeWhile_write (by decide) call
  unfold callText
  rw [closes, inside]
  split
  · exact (Breaks.twice.write_concat (by decide) _).symm
  · rfl

theorem coordinateOfName_doubled (s : List Char) :
    coordinateOfName (doubled s) = (coordinateOfName s).doubled := by
  simp only [coordinateOfName, Coordinate.doubled, Breaks.text_empty, Breaks.text_ofList]
  rfl

theorem namedArgument?_doubled (s : List Char) :
    namedArgument? (doubled s) =
      (namedArgument? s).map fun pair => (pair.1, Breaks.twice.text pair.2) := by
  have parts : cut? ':' (doubled s) =
      (cut? ':' s).map fun parts => (doubled parts.1, doubled parts.2) :=
    Breaks.twice.cut?_write (by decide) s
  unfold namedArgument?
  rw [parts]
  cases cut? ':' s with
  | none => rfl
  | some parts =>
    obtain ⟨name, value⟩ := parts
    have trimmed : ∀ s, trim (doubled s) = doubled (trim s) := Breaks.twice.trim_write
    have unquoted : ∀ s, unquote (doubled s) = doubled (unquote s) := Breaks.twice.unquote_write
    simp only [Option.map_some, trimmed, unquoted, isIdentifier_padded (padded_doubled (trim name))]
    split
    · next identifier =>
      have plain : '\n' ∉ trim name := by
        intro member
        rcases ascii_of_mem_identifier identifier member with alphanum | same
        · cases alphanum
        · cases same
      rw [doubled_eq_self plain, Option.map_some, Breaks.text_ofList]
      rfl
    · rfl

/-- The same names, with the line feeds of their texts repeated. -/
def Attributes.doubled (rule : Attributes) : Attributes :=
  rule.map fun pair => (pair.1, Breaks.twice.text pair.2)

theorem Attributes.set_doubled (rule : Attributes) (name text : String) :
    Attributes.set name (Breaks.twice.text text) rule.doubled =
      (Attributes.set name text rule).doubled := by
  induction rule with
  | nil => rfl
  | cons pair rule ih =>
    obtain ⟨n, t⟩ := pair
    show Attributes.set name (Breaks.twice.text text)
      ((n, Breaks.twice.text t) :: Attributes.doubled rule) = _
    rw [Attributes.set, Attributes.set, ih]
    split
    · rfl
    · split <;> rfl

theorem Attributes.ofPairs_doubled (pairs : List (String × String)) :
    Attributes.ofPairs (pairs.map fun pair => (pair.1, Breaks.twice.text pair.2)) =
      (Attributes.ofPairs pairs).doubled := by
  have run : ∀ rule : Attributes,
      (pairs.map fun pair => (pair.1, Breaks.twice.text pair.2)).foldl
          (fun rule pair => Attributes.set pair.1 pair.2 rule) rule.doubled =
        Attributes.doubled
          (pairs.foldl (fun rule pair => Attributes.set pair.1 pair.2 rule) rule) := by
    induction pairs with
    | nil => exact fun _ => rfl
    | cons pair pairs ih =>
      intro rule
      rw [List.map_cons, List.foldl_cons, List.foldl_cons, Attributes.set_doubled, ih]
  exact run []

theorem Attributes.lookup_doubled (rule : Attributes) (name : String) :
    rule.doubled.lookup name = (rule.lookup name).map Breaks.twice.text := by
  induction rule with
  | nil => rfl
  | cons pair rule ih =>
    obtain ⟨n, t⟩ := pair
    show List.lookup name ((n, Breaks.twice.text t) :: Attributes.doubled rule) = _
    rw [Attributes.lookup_cons, Attributes.lookup_cons, ih]
    split <;> rfl

theorem namedArguments_doubled (s : List Char) :
    namedArguments (doubled s) = (namedArguments s).doubled := by
  unfold namedArguments
  rw [splitArguments_doubled, List.filterMap_map, ← Attributes.ofPairs_doubled, List.map_filterMap]
  exact congrArg (fun f => Attributes.ofPairs ((splitArguments s).filterMap f))
    (funext namedArgument?_doubled)

theorem namedCoordinate?_doubled (s : List Char) :
    namedCoordinate? (doubled s) = (namedCoordinate? s).map Coordinate.doubled := by
  have text : ∀ key, ((namedArguments s).doubled.lookup key).getD "" =
      Breaks.twice.text (((namedArguments s).lookup key).getD "") := by
    intro key
    rw [Attributes.lookup_doubled]
    cases (namedArguments s).lookup key <;> rfl
  simp only [namedCoordinate?, namedArguments_doubled, text]
  rw [Attributes.lookup_doubled, Option.map_map, Option.map_map]
  rfl

/-! ## Statements -/

/-- The coordinate of a notation that is no list of coordinates. -/
def singleCoordinate (s : List Char) : Coordinate :=
  match quotedCoordinate? s with
  | some coordinate => coordinate
  | none =>
    match fromProject? s with
    | some call => coordinateOfName (callText s call)
    | none => (namedCoordinate? s).getD (coordinateOfName (unquote s))

theorem coordinates_eq (s : List Char) :
    coordinates s = match (splitArguments s).mapM quotedCoordinate? with
      | some (first :: others) => first :: others
      | _ => [singleCoordinate s] := by
  unfold coordinates singleCoordinate
  rcases (splitArguments s).mapM quotedCoordinate? with _ | _ | ⟨first, others⟩
  case some.cons => rfl
  all_goals
    cases quotedCoordinate? s with
    | some coordinate => rfl
    | none => cases fromProject? s <;> rfl

theorem singleCoordinate_doubled (s : List Char) :
    singleCoordinate (doubled s) = (singleCoordinate s).doubled := by
  have bare : coordinateOfName (unquote (doubled s)) = (coordinateOfName (unquote s)).doubled := by
    rw [← coordinateOfName_doubled]
    exact congrArg coordinateOfName (Breaks.twice.unquote_write s)
  unfold singleCoordinate
  rw [quotedCoordinate?_doubled, fromProject?_doubled, namedCoordinate?_doubled, bare]
  cases quotedCoordinate? s with
  | some coordinate => rfl
  | none =>
    cases fromProject? s with
    | some call =>
      show coordinateOfName (callText (doubled s) (doubled call)) = _
      rw [callText_doubled, coordinateOfName_doubled]
    | none => cases namedCoordinate? s <;> rfl

theorem coordinates_doubled (s : List Char) :
    coordinates (doubled s) = (coordinates s).map Coordinate.doubled := by
  rw [coordinates_eq, coordinates_eq, splitArguments_doubled, mapM_quotedCoordinate?_doubled,
    singleCoordinate_doubled]
  rcases (splitArguments s).mapM quotedCoordinate? with _ | _ | ⟨first, others⟩ <;> rfl

/-- The dependency with the line feeds of its texts repeated. -/
def Dependency.doubled (d : Dependency) : Dependency :=
  { d with
    group := Breaks.twice.text d.group
    name := Breaks.twice.text d.name
    version := Breaks.twice.text d.version }

theorem Dependency.doubled_eq_self_iff (d : Dependency) : d.doubled = d ↔ d.isOneLine = true := by
  have longer : 2 ≤ Breaks.twice.chars.length := by decide
  obtain ⟨group, name, version, kind, excludes⟩ := d
  simp only [doubled, mk.injEq, and_true, text_eq_self_iff longer]
  simp [isOneLine, and_assoc]

theorem declarations_doubled (statement : List Char) :
    declarations (doubled statement) = (declarations statement).map Dependency.doubled := by
  have behind : (doubled statement).dropWhile isKeywordChar =
      doubled (statement.dropWhile isKeywordChar) := Breaks.twice.dropWhile_write (by decide) _
  have trimmed : ∀ s, trim (doubled s) = doubled (trim s) := Breaks.twice.trim_write
  have excludes : ∀ block : Option (List Char),
      ((block.map doubled).map excludeRules).getD [] = (block.map excludeRules).getD [] := by
    intro block
    cases block with
    | none => rfl
    | some block => exact excludeRules_padded (padded_doubled block)
  have blank : ∀ s, (doubled s).isEmpty = s.isEmpty := Breaks.twice.isEmpty_write
  simp only [declarations, (padded_doubled statement).takeWhile_eq (p := isKeywordChar) (by decide),
    behind, splitBlock_doubled 0 none_ne_lineFeed, trimmed, stripParentheses_doubled, excludes,
    blank]
  split
  · rfl
  · rw [coordinates_doubled, List.map_map, List.map_map]
    rfl

end BuildScript
