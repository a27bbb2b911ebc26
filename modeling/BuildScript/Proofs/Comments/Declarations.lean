import BuildScript.Proofs.Attributes
import BuildScript.Proofs.Dependencies.Declaration
import BuildScript.Proofs.Comments.LineFeeds

/-!
# Declarations and repeated line feeds

A line feed says nothing in a statement of a dependencies block: where the statement is taken apart
it is like any other character, and a coordinate, a name of an argument or a rule holds none.  So a
statement with line feeds repeated declares the same, unless a text that it declares runs over
several lines.
-/

namespace BuildScript

open Text Unicode Dependencies

variable {s s' r : List Char} {quote : Option Char}

/-! ## Scanners -/

theorem none_ne_lineFeed : (none : Option Char) ≠ some '\n' := (Option.some_ne_none '\n').symm

theorem quoteAfter_lineFeed (h : quote ≠ some '\n') : quoteAfter quote '\n' = quote := by
  cases quote with
  | none => rfl
  | some q =>
    have other : ¬ ('\n' == q) = true := fun same => h (by rw [eq_of_beq same])
    exact if_neg other

theorem quoteAfter_ne (h : quote ≠ some '\n') (c : Char) : quoteAfter quote c ≠ some '\n' := by
  cases quote with
  | none =>
    intro same
    simp only [quoteAfter] at same
    split at same
    · next quoted =>
      cases same
      cases quoted
    · cases same
  | some q =>
    intro same
    simp only [quoteAfter] at same
    split at same
    · cases same
    · exact h same

theorem argumentPieces_cons (depth : Nat) (quote : Option Char) (c : Char) (r : List Char) :
    argumentPieces depth quote (c :: r) =
      if !inLiteral quote c && c == ',' && depth == 0 then [] :: argumentPieces 0 none r
      else prependToFirst c (argumentPieces
        (if inLiteral quote c then depth
          else if c == '(' || c == '[' || c == '{' then depth + 1
          else if c == ')' || c == ']' || c == '}' then depth - 1
          else depth) (quoteAfter quote c) r) := by
  rw [argumentPieces]
  rfl

theorem argumentPieces_lineFeed (h : quote ≠ some '\n') (depth : Nat) (r : List Char) :
    argumentPieces depth quote ('\n' :: r) = prependToFirst '\n' (argumentPieces depth quote r) := by
  rw [argumentPieces_cons, quoteAfter_lineFeed h]
  simp

theorem prependToFirst_padded {pieces pieces' : List (List Char)} (c : Char)
    (h : List.Forall₂ Padded pieces pieces') :
    List.Forall₂ Padded (prependToFirst c pieces) (prependToFirst c pieces') := by
  cases h with
  | nil => exact .cons (.refl [c]) .nil
  | cons first others => exact .cons (.cons c first) others

/-- Padding stays in its piece. -/
theorem argumentPieces_padded (h : Padded s s') (depth : Nat) (valid : quote ≠ some '\n') :
    List.Forall₂ Padded (argumentPieces depth quote s) (argumentPieces depth quote s') := by
  induction h generalizing depth quote with
  | nil => exact .cons .nil .nil
  | cons c _ ih =>
    rw [argumentPieces_cons, argumentPieces_cons]
    split
    · exact .cons .nil (ih 0 none_ne_lineFeed)
    · exact prependToFirst_padded c (ih _ (quoteAfter_ne valid c))
  | @again s s' _ ih =>
    have below := ih depth valid
    rw [argumentPieces_lineFeed valid] at below
    rw [argumentPieces_lineFeed valid, argumentPieces_lineFeed valid]
    generalize argumentPieces depth quote s = pieces at below ⊢
    generalize argumentPieces depth quote s' = pieces' at below ⊢
    cases pieces' with
    | nil =>
      cases below with
      | cons first others => exact .cons (.again first) others
    | cons piece others =>
      cases below with
      | cons first others => exact .cons (.again first) others

theorem splitArguments_padded (h : Padded s s') :
    List.Forall₂ Padded (splitArguments s) (splitArguments s') := by
  unfold splitArguments
  rw [show allBlank s' = allBlank s from h.all_eq isBlank]
  split
  · exact .nil
  · rw [List.forall₂_map_left_iff, List.forall₂_map_right_iff]
    exact (argumentPieces_padded h 0 none_ne_lineFeed).imp fun _ _ piece => piece.trim

theorem closesAtEnd_padded (h : Padded s s') (depth : Nat) (valid : quote ≠ some '\n') :
    closesAtEnd depth quote s' = closesAtEnd depth quote s := by
  have lineFeed : ∀ {depth quote}, quote ≠ some '\n' → ∀ r,
      closesAtEnd depth quote ('\n' :: r) = closesAtEnd depth quote r := by
    intro depth quote valid r
    cases quote with
    | none => rfl
    | some q =>
      have inside : inLiteral (some q) '\n' = true := rfl
      rw [closesAtEnd, if_pos inside, quoteAfter_lineFeed valid]
  induction h generalizing depth quote with
  | nil => rfl
  | cons c h ih =>
    rw [closesAtEnd, closesAtEnd, ih _ (quoteAfter_ne valid c), ih (depth + 1) none_ne_lineFeed,
      ih (depth - 1) none_ne_lineFeed, ih depth none_ne_lineFeed, h.isEmpty_eq]
  | again _ ih =>
    rw [lineFeed valid]
    exact ih depth valid

theorem getLast?_of_closesAtEnd {depth : Nat} (h : closesAtEnd depth quote s = true) :
    s.getLast? = some ')' := by
  have onward : ∀ {c : Char} {r : List Char}, r.getLast? = some ')' →
      (c :: r).getLast? = some ')' := by
    intro c r last
    rw [List.getLast?_cons, last]
    rfl
  fun_induction closesAtEnd depth quote s with
  | case1 => cases h
  | case2 _ _ _ _ _ ih => exact onward (ih h)
  | case3 _ _ _ _ _ _ ih => exact onward (ih h)
  | case4 depth quote c r _ _ closes _ =>
    rw [eq_of_beq closes, List.isEmpty_iff.1 h]
    rfl
  | case5 _ _ _ _ _ _ _ _ ih => exact onward (ih h)
  | case6 _ _ _ _ _ _ _ ih => exact onward (ih h)

theorem stripParentheses_padded (h : Padded s s') :
    Padded (stripParentheses s) (stripParentheses s') := by
  cases h with
  | nil => exact .nil
  | @cons c s s' h =>
    by_cases paren : c = '('
    · subst paren
      simp only [stripParentheses, closesAtEnd_padded h 1 none_ne_lineFeed]
      split
      · next closes => exact h.dropLast (getLast?_of_closesAtEnd closes) (by decide)
      · exact .cons '(' h
    · rw [stripParentheses_of_ne paren, stripParentheses_of_ne paren]
      exact .cons c h
  | @again s s' h =>
    obtain ⟨t, rfl⟩ := h.exists_lineFeed
    exact .again h

theorem splitBlock_cons (depth : Nat) (quote : Option Char) (c : Char) (r : List Char) :
    splitBlock depth quote (c :: r) =
      if !inLiteral quote c && c == '{' && depth == 0 then
        ([], some (if r.getLast? == some '}' then r.dropLast else r))
      else
        (fun parts => (c :: parts.1, parts.2)) (splitBlock
          (if inLiteral quote c then depth
            else if c == '(' || c == '[' then depth + 1
            else if c == ')' || c == ']' then depth - 1
            else depth) (quoteAfter quote c) r) := by
  rw [splitBlock]

theorem splitBlock_lineFeed (h : quote ≠ some '\n') (depth : Nat) (r : List Char) :
    splitBlock depth quote ('\n' :: r) =
      ('\n' :: (splitBlock depth quote r).1, (splitBlock depth quote r).2) := by
  rw [splitBlock_cons, quoteAfter_lineFeed h]
  simp

/-- Padding stays before the block or in it. -/
theorem splitBlock_padded (h : Padded s s') (depth : Nat) (valid : quote ≠ some '\n') :
    Padded (splitBlock depth quote s).1 (splitBlock depth quote s').1 ∧
      Option.Rel Padded (splitBlock depth quote s).2 (splitBlock depth quote s').2 := by
  induction h generalizing depth quote with
  | nil => exact ⟨.nil, .none⟩
  | @cons c s s' h ih =>
    rw [splitBlock_cons, splitBlock_cons]
    split
    · refine ⟨.nil, .some ?_⟩
      rw [h.getLast?_eq]
      split
      · next last => exact h.dropLast (eq_of_beq last) (by decide)
      · exact h
    · obtain ⟨before, block⟩ := ih _ (quoteAfter_ne valid c)
      exact ⟨.cons c before, block⟩
  | again _ ih =>
    obtain ⟨before, block⟩ := ih depth valid
    rw [splitBlock_lineFeed valid] at before block
    rw [splitBlock_lineFeed valid, splitBlock_lineFeed valid]
    exact ⟨.again before, block⟩

/-! ## Coordinates -/

theorem run?_padded (isMember : Char → Bool) (plain : isMember '\n' = false) (h : Padded s s') :
    Option.Rel (fun a b => b.1 = a.1 ∧ Padded a.2 b.2) (run? isMember s) (run? isMember s') := by
  unfold run?
  rw [h.takeWhile_eq plain]
  split
  · exact .none
  · exact .some ⟨rfl, h.dropWhile isMember⟩

theorem part?_of_run? {part rest : List Char} {c : Char}
    (h : run? isPartChar s = some (part, c :: rest)) :
    part? s = if c = ':' then some (part, rest) else none := by
  rw [part?, h]
  split
  · next same =>
    cases same
    rw [if_pos rfl]
  · next other =>
    rw [if_neg]
    rintro rfl
    exact other _ _ rfl

theorem part?_padded (h : Padded s s') :
    Option.Rel (fun a b => b.1 = a.1 ∧ Padded a.2 b.2) (part? s) (part? s') := by
  have found := run?_padded isPartChar (by decide) h
  cases run : run? isPartChar s with
  | none =>
    have run' : run? isPartChar s' = none := by
      rw [run] at found
      generalize run? isPartChar s' = parts' at found ⊢
      cases found
      rfl
    rw [part?, part?, run, run']
    exact .none
  | some parts =>
    obtain ⟨part, rest⟩ := parts
    obtain ⟨rest', run', behind⟩ :
        ∃ rest', run? isPartChar s' = some (part, rest') ∧ Padded rest rest' := by
      rw [run] at found
      generalize run? isPartChar s' = parts' at found ⊢
      cases found with
      | @some _ b same => exact ⟨b.2, congrArg some (Prod.ext same.1 rfl), same.2⟩
    cases behind with
    | nil =>
      rw [part?, part?, run, run']
      exact .none
    | cons c behind =>
      rw [part?_of_run? run, part?_of_run? run']
      split
      · exact .some ⟨rfl, behind⟩
      · exact .none
    | again behind =>
      obtain ⟨t, rfl⟩ := behind.exists_lineFeed
      rw [part?_of_run? run, part?_of_run? run']
      exact .none

theorem coordinateHere?_padded (h : Padded s s') : coordinateHere? s' = coordinateHere? s := by
  have group := part?_padded h
  simp only [coordinateHere?, Option.bind_eq_bind]
  generalize part? s = a at group ⊢
  generalize part? s' = a' at group ⊢
  cases group with
  | none => rfl
  | @some a a' same =>
    obtain ⟨group, behind⟩ := a
    obtain ⟨group', behind'⟩ := a'
    obtain ⟨rfl, padded⟩ := same
    have name := part?_padded padded
    simp only [Option.bind_some]
    generalize part? behind = b at name ⊢
    generalize part? behind' = b' at name ⊢
    cases name with
    | none => rfl
    | @some b b' same =>
      obtain ⟨name, last⟩ := b
      obtain ⟨name', last'⟩ := b'
      obtain ⟨rfl, padded⟩ := same
      have version := run?_padded isVersionChar (by decide) padded
      simp only [Option.bind_some]
      generalize run? isVersionChar last = v at version ⊢
      generalize run? isVersionChar last' = v' at version ⊢
      cases version with
      | none => rfl
      | some same => simp [same.1]

theorem findCoordinate?_lineFeed (r : List Char) :
    findCoordinate? ('\n' :: r) = findCoordinate? r := by
  have none : part? ('\n' :: r) = none :=
    part?_eq_none (forall_mem_head? (by decide) r)
  simp [findCoordinate?, coordinateHere?, none]

theorem findCoordinate?_padded (h : Padded s s') : findCoordinate? s' = findCoordinate? s := by
  induction h with
  | nil => rfl
  | cons c h ih => rw [findCoordinate?, findCoordinate?, ih, coordinateHere?_padded (.cons c h)]
  | again _ ih =>
    rw [findCoordinate?_lineFeed]
    exact ih

theorem quotedCoordinate?_padded (h : Padded s s') : quotedCoordinate? s' = quotedCoordinate? s :=
  findCoordinate?_padded h.trim.unquote

theorem mapM_quotedCoordinate?_padded {pieces pieces' : List (List Char)}
    (h : List.Forall₂ Padded pieces pieces') :
    pieces'.mapM quotedCoordinate? = pieces.mapM quotedCoordinate? := by
  induction h with
  | nil => rfl
  | cons first _ ih => rw [List.mapM_cons, List.mapM_cons, quotedCoordinate?_padded first, ih]

/-! ## Names and arguments -/

theorem fromProject?_padded (h : Padded s s') :
    Option.Rel Padded (fromProject? s) (fromProject? s') := by
  induction h with
  | nil => exact .none
  | @cons c s s' h ih =>
    have here := (Padded.cons c h).after? (by decide : '\n' ∉ "project(".toList)
    unfold fromProject?
    generalize after? "project(".toList (c :: s) = call at here ⊢
    generalize after? "project(".toList (c :: s') = call' at here ⊢
    cases here with
    | none => exact ih
    | some _ => exact .some (.cons c h)
  | again _ ih => exact ih

theorem callText_padded {call call' : List Char} (h : Padded s s') (inner : Padded call call') :
    Padded (callText s call) (callText s' call') := by
  have closes : call'.contains ')' = call.contains ')' := by
    rw [Bool.eq_iff_iff, List.contains_iff_mem, List.contains_iff_mem, inner.mem_iff]
  unfold callText
  rw [closes]
  split
  · exact (inner.takeWhile (· != ')')).append (.refl [')'])
  · exact h

theorem cut?_padded (h : Padded s s') {separator : Char} (plain : separator ≠ '\n') :
    Option.Rel (fun a b => Padded a.1 b.1 ∧ Padded a.2 b.2) (cut? separator s)
      (cut? separator s') := by
  have onward : ∀ {c : Char} {cut cut' : Option (List Char × List Char)},
      Option.Rel (fun a b => Padded a.1 b.1 ∧ Padded a.2 b.2) cut cut' →
      Option.Rel (fun a b => Padded a.1 b.1 ∧ Padded a.2 b.2)
        (cut.map fun parts => (c :: parts.1, parts.2))
        (cut'.map fun parts => (c :: parts.1, parts.2)) := by
    intro c cut cut' same
    cases same with
    | none => exact .none
    | some parts => exact .some ⟨.cons c parts.1, parts.2⟩
  have goesOn : ('\n' == separator) = false := beq_eq_false_iff_ne.2 (Ne.symm plain)
  induction h with
  | nil => exact .none
  | cons c h ih =>
    simp only [cut?]
    split
    · exact .some ⟨.nil, h⟩
    · exact onward ih
  | @again s s' h ih =>
    simp only [cut?, goesOn, Bool.false_eq_true, if_false] at ih ⊢
    generalize cut? separator s = cut at ih ⊢
    generalize cut? separator s' = cut' at ih ⊢
    cases cut' with
    | none => exact ih
    | some parts =>
      cases ih with
      | some same => exact .some ⟨.again same.1, same.2⟩

theorem isIdentifier_padded (h : Padded s s') : isIdentifier s' = isIdentifier s := by
  cases h with
  | nil => rfl
  | cons c h => rw [isIdentifier, isIdentifier, h.all_eq]
  | again h =>
    obtain ⟨t, rfl⟩ := h.exists_lineFeed
    rfl

theorem namedArgument?_padded (h : Padded s s') :
    Option.Rel (fun a b => b.1 = a.1 ∧ Padded a.2.toList b.2.toList) (namedArgument? s)
      (namedArgument? s') := by
  have parts := cut?_padded h (by decide : ':' ≠ '\n')
  unfold namedArgument?
  generalize cut? ':' s = cut at parts ⊢
  generalize cut? ':' s' = cut' at parts ⊢
  cases parts with
  | none => exact .none
  | @some a b parts =>
    obtain ⟨name, value⟩ := a
    obtain ⟨name', value'⟩ := b
    obtain ⟨names, values⟩ := parts
    simp only [isIdentifier_padded names.trim]
    split
    · next identifier =>
      have lineFeed : '\n' ∉ trim name := by
        intro member
        rcases ascii_of_mem_identifier identifier member with alphanum | same
        · cases alphanum
        · cases same
      refine .some ⟨?_, ?_⟩
      · rw [names.trim.eq_of_not_mem lineFeed]
      · rw [String.toList_ofList, String.toList_ofList]
        exact values.trim.unquote
    · exact .none

/-- The same names, with padding in their texts. -/
def Attributes.Padded (rule rule' : Attributes) : Prop :=
  List.Forall₂ (fun a b => b.1 = a.1 ∧ BuildScript.Padded a.2.toList b.2.toList) rule rule'

theorem Attributes.Padded.set {rule rule' : Attributes} (h : Attributes.Padded rule rule')
    (name : String) {text text' : String} (padded : BuildScript.Padded text.toList text'.toList) :
    Attributes.Padded (Attributes.set name text rule) (Attributes.set name text' rule') := by
  induction h with
  | nil => exact .cons ⟨rfl, padded⟩ .nil
  | @cons a b rule rule' same others ih =>
    obtain ⟨n, t⟩ := a
    obtain ⟨n', t'⟩ := b
    obtain ⟨names, texts⟩ := same
    have names : n' = n := names
    subst names
    rw [Attributes.set, Attributes.set]
    split
    · exact .cons ⟨rfl, padded⟩ (.cons ⟨rfl, texts⟩ others)
    · split
      · exact .cons ⟨rfl, padded⟩ others
      · exact .cons ⟨rfl, texts⟩ ih

theorem Attributes.Padded.lookup {rule rule' : Attributes} (h : Attributes.Padded rule rule')
    (key : String) :
    Option.Rel (fun a b => BuildScript.Padded a.toList b.toList) (rule.lookup key)
      (rule'.lookup key) := by
  induction h with
  | nil => exact .none
  | @cons a b rule rule' same others ih =>
    obtain ⟨n, t⟩ := a
    obtain ⟨n', t'⟩ := b
    obtain ⟨names, texts⟩ := same
    have names : n' = n := names
    subst names
    rw [Attributes.lookup_cons, Attributes.lookup_cons]
    split
    · exact .some texts
    · exact ih

theorem namedArguments_padded (h : Padded s s') :
    Attributes.Padded (namedArguments s) (namedArguments s') := by
  have pairs : Attributes.Padded ((splitArguments s).filterMap namedArgument?)
      ((splitArguments s').filterMap namedArgument?) :=
    List.rel_filterMap (fun _ _ argument => namedArgument?_padded argument)
      (splitArguments_padded h)
  have set : ∀ rule rule' : Attributes, Attributes.Padded rule rule' →
      ∀ a b : String × String, b.1 = a.1 ∧ Padded a.2.toList b.2.toList →
        Attributes.Padded (rule.set a.1 a.2) (rule'.set b.1 b.2) := by
    intro rule rule' rules a b same
    rw [same.1]
    exact rules.set a.1 same.2
  exact List.rel_foldl set .nil pairs

/-! ## Notations -/

/-- The same coordinate with padding in its texts. -/
structure Coordinate.Padded (c c' : Coordinate) : Prop where
  group : BuildScript.Padded c.group.toList c'.group.toList
  name : BuildScript.Padded c.name.toList c'.name.toList
  version : BuildScript.Padded c.version.toList c'.version.toList

theorem Coordinate.Padded.refl (c : Coordinate) : Coordinate.Padded c c :=
  ⟨.refl _, .refl _, .refl _⟩

theorem coordinateOfName_padded (h : Padded s s') :
    Coordinate.Padded (coordinateOfName s) (coordinateOfName s') := by
  refine ⟨.nil, ?_, .nil⟩
  rw [coordinateOfName, coordinateOfName, String.toList_ofList, String.toList_ofList]
  exact h

theorem namedCoordinate?_padded (h : Padded s s') :
    Option.Rel Coordinate.Padded (namedCoordinate? s) (namedCoordinate? s') := by
  have arguments := namedArguments_padded h
  have text : ∀ key, Padded (((namedArguments s).lookup key).getD "").toList
      (((namedArguments s').lookup key).getD "").toList := by
    intro key
    have found := arguments.lookup key
    generalize (namedArguments s).lookup key = text at found ⊢
    generalize (namedArguments s').lookup key = text' at found ⊢
    cases found with
    | none => exact .nil
    | some padded => exact padded
  have name := arguments.lookup "name"
  simp only [namedCoordinate?]
  generalize (namedArguments s).lookup "name" = name at name ⊢
  generalize (namedArguments s').lookup "name" = name' at name ⊢
  cases name with
  | none => exact .none
  | some padded => exact .some ⟨text "group", padded, text "version"⟩

theorem coordinates_padded (h : Padded s s') :
    List.Forall₂ Coordinate.Padded (coordinates s) (coordinates s') := by
  have same : ∀ cs : List Coordinate, List.Forall₂ Coordinate.Padded cs cs :=
    fun cs => List.forall₂_same.2 fun c _ => .refl c
  have call := fromProject?_padded h
  have named := namedCoordinate?_padded h
  unfold coordinates
  rw [mapM_quotedCoordinate?_padded (splitArguments_padded h), quotedCoordinate?_padded h]
  split
  · exact same _
  · split
    · exact .cons (.refl _) .nil
    · generalize fromProject? s = found at call ⊢
      generalize fromProject? s' = found' at call ⊢
      cases call with
      | some inner => exact .cons (coordinateOfName_padded (callText_padded h inner)) .nil
      | none =>
        refine .cons ?_ .nil
        generalize namedCoordinate? s = coordinate at named ⊢
        generalize namedCoordinate? s' = coordinate' at named ⊢
        cases named with
        | some padded => exact padded
        | none => exact coordinateOfName_padded h.unquote

/-! ## Rules -/

theorem excludeRule?_strip (line : List Char) :
    excludeRule? (if line.getLast? == some '\r' then line.dropLast else line) =
      excludeRule? line := by
  split
  · next last =>
    have whole : line.dropLast ++ ['\r'] = line :=
      List.dropLast_append_getLast? '\r' (eq_of_beq last)
    rw [excludeRule?, ← trim_concat (c := '\r') (by decide), whole, ← excludeRule?]
  · rfl

/-- Every piece between line feeds gives its rule. -/
theorem excludeRules_eq (s : List Char) :
    excludeRules s = (splitOn '\n' s).filterMap excludeRule? := by
  obtain ⟨last, same⟩ : ∃ last, (splitOn '\n' s).getLast? = some last :=
    ⟨_, List.getLast?_eq_some_getLast (splitOn_ne_nil '\n' s)⟩
  have whole := List.dropLast_append_getLast? last same
  have ended : ∀ pieces : List (List Char),
      (pieces.map fun line => if line.getLast? == some '\r' then line.dropLast else line).filterMap
        excludeRule? = pieces.filterMap excludeRule? := by
    intro pieces
    rw [List.filterMap_map]
    exact congrArg (List.filterMap · pieces) (funext excludeRule?_strip)
  conv_rhs => rw [← whole]
  rw [List.filterMap_append, excludeRules, lines, same]
  cases last with
  | nil =>
    rw [ended]
    exact (List.append_nil _).symm
  | cons c last => rw [List.filterMap_append, ended]

theorem splitOn_padded (h : Padded s s') :
    ∃ piece pieces pieces', splitOn '\n' s = piece :: pieces ∧
      splitOn '\n' s' = piece :: pieces' ∧
      pieces'.filterMap excludeRule? = pieces.filterMap excludeRule? := by
  induction h with
  | nil => exact ⟨[], [], [], rfl, rfl, rfl⟩
  | @cons c s s' _ ih =>
    obtain ⟨piece, pieces, pieces', split, split', same⟩ := ih
    by_cases lineFeed : c = '\n'
    · subst lineFeed
      refine ⟨[], piece :: pieces, piece :: pieces', ?_, ?_, ?_⟩
      · simp [splitOn, split]
      · simp [splitOn, split']
      · rw [List.filterMap_cons, List.filterMap_cons, same]
    · refine ⟨c :: piece, pieces, pieces', ?_, ?_, same⟩
      · simp [splitOn, lineFeed, split]
      · simp [splitOn, lineFeed, split']
  | @again s s' _ ih =>
    obtain ⟨piece, pieces, pieces', split, split', same⟩ := ih
    have opens : ∀ r, splitOn '\n' ('\n' :: r) = [] :: splitOn '\n' r := by simp [splitOn]
    rw [opens] at split'
    obtain ⟨rfl, rfl⟩ := List.cons.inj split'
    refine ⟨[], pieces, [] :: splitOn '\n' s', split, by rw [opens, opens], ?_⟩
    exact same

theorem excludeRules_padded (h : Padded s s') : excludeRules s' = excludeRules s := by
  obtain ⟨piece, pieces, pieces', split, split', same⟩ := splitOn_padded h
  rw [excludeRules_eq, excludeRules_eq, split, split', List.filterMap_cons, List.filterMap_cons,
    same]

/-! ## Statements -/

/-- The same dependency with padding in its texts. -/
structure Dependency.Padded (d d' : Dependency) : Prop where
  group : BuildScript.Padded d.group.toList d'.group.toList
  name : BuildScript.Padded d.name.toList d'.name.toList
  version : BuildScript.Padded d.version.toList d'.version.toList
  kind : d'.kind = d.kind
  excludes : d'.excludes = d.excludes

theorem declarations_padded (h : Padded s s') :
    List.Forall₂ Dependency.Padded (declarations s) (declarations s') := by
  obtain ⟨before, block⟩ :=
    splitBlock_padded (h.dropWhile isKeywordChar) 0 none_ne_lineFeed
  have excludes : ((splitBlock 0 none (s'.dropWhile isKeywordChar)).2.map excludeRules).getD [] =
      ((splitBlock 0 none (s.dropWhile isKeywordChar)).2.map excludeRules).getD [] := by
    generalize (splitBlock 0 none (s.dropWhile isKeywordChar)).2 = block at block ⊢
    generalize (splitBlock 0 none (s'.dropWhile isKeywordChar)).2 = block' at block ⊢
    cases block with
    | none => rfl
    | some padded => exact excludeRules_padded padded
  have spec := (stripParentheses_padded before.trim).trim
  simp only [declarations, h.takeWhile_eq (p := isKeywordChar) (by decide), spec.isEmpty_eq,
    excludes]
  split
  · exact .nil
  · rw [List.forall₂_map_left_iff, List.forall₂_map_right_iff]
    exact (coordinates_padded spec).imp fun c c' same =>
      ⟨same.group, same.name, same.version, rfl, rfl⟩

/-- No text that the dependency is made of runs over several lines. -/
def Dependency.isOneLine (d : Dependency) : Bool :=
  !(d.group.toList.contains '\n' || d.name.toList.contains '\n' ||
    d.version.toList.contains '\n')

theorem Dependency.Padded.eq_of_isOneLine {d d' : Dependency} (h : Dependency.Padded d d')
    (oneLine : d.isOneLine = true) : d' = d := by
  have same : ∀ {text text' : String}, BuildScript.Padded text.toList text'.toList →
      '\n' ∉ text.toList → text' = text := fun padded plain =>
    String.toList_inj.1 (padded.eq_of_not_mem plain)
  obtain ⟨⟨group, name⟩, version⟩ :
      ('\n' ∉ d.group.toList ∧ '\n' ∉ d.name.toList) ∧ '\n' ∉ d.version.toList := by
    simpa [isOneLine] using oneLine
  obtain ⟨g, n, v, kind, excludes⟩ := d
  obtain ⟨g', n', v', kind', excludes'⟩ := d'
  obtain rfl := same h.group group
  obtain rfl := same h.name name
  obtain rfl := same h.version version
  obtain rfl : kind' = kind := h.kind
  obtain rfl : excludes' = excludes := h.excludes
  rfl

/-- Line feeds that are repeated in a statement show only in texts that hold a line feed. -/
theorem eq_of_padded {ds ds' : List Dependency} (h : List.Forall₂ Dependency.Padded ds ds')
    (oneLine : ds.all Dependency.isOneLine = true) : ds' = ds := by
  induction h with
  | nil => rfl
  | cons first _ ih =>
    obtain ⟨here, others⟩ := Bool.and_eq_true_iff.1 oneLine
    rw [first.eq_of_isOneLine here, ih others]

end BuildScript
