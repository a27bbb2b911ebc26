import BuildScript.Proofs.Json.Tokens

/-!
# Reading JSON

The grammar of values in JSON as a machine that takes one token after the other.  A document that is
written as JSON comes back with all its data in its order, so that its text says neither more nor
less than its tree.
-/

namespace BuildScript.Json

/-! ## The machine -/

/-- What a value is for, with all that is open around it. -/
inductive Target where
  | whole
  | item (items : List Tree) (outer : Target)
  | member (members : List (String × Tree)) (name : String) (outer : Target)

/-- A place between two tokens. -/
inductive Place where
  | value (target : Target)
  | behindItem (items : List Tree) (outer : Target)
  | name (members : List (String × Tree)) (outer : Target)
  | behindName (members : List (String × Tree)) (name : String) (outer : Target)
  | behindMember (members : List (String × Tree)) (outer : Target)
  /-- Behind the whole text. -/
  | done (t : Tree)

/-- The place behind a whole value. -/
def give (t : Tree) : Target → Place
  | .whole => .done t
  | .item items outer => .behindItem (items ++ [t]) outer
  | .member members name outer => .behindMember (members ++ [(name, t)]) outer

/-- An array may end in place of its first item, an object in place of its first name.  Behind a
comma neither may. -/
def step : Place → Token → Option Place
  | .value target, .text s => some (give (.text s) target)
  | .value target, .boolean b => some (give (.boolean b) target)
  | .value target, .mark '[' => some (.value (.item [] target))
  | .value target, .mark '{' => some (.name [] target)
  | .value (.item [] outer), .mark ']' => some (give (.array []) outer)
  | .behindItem items outer, .mark ',' => some (.value (.item items outer))
  | .behindItem items outer, .mark ']' => some (give (.array items) outer)
  | .name members outer, .text name => some (.behindName members name outer)
  | .name [] outer, .mark '}' => some (give (.map []) outer)
  | .behindName members name outer, .mark ':' => some (.value (.member members name outer))
  | .behindMember members outer, .mark ',' => some (.name members outer)
  | .behindMember members outer, .mark '}' => some (give (.map members) outer)
  | _, _ => none

/-- The place behind the tokens. -/
def run (place : Place) (ts : List Token) : Option Place := ts.foldlM step place

/-- The data of a valid text in JSON without numbers and `null`, which no document has. -/
def read? (s : List Char) : Option Tree :=
  match (tokens s).bind (run (.value .whole)) with
  | some (.done t) => some t
  | _ => none

/-! ## Runs over values -/

section

variable {place next : Place} {token : Token} {ts : List Token}

theorem run_cons (here : step place token = some next) (ts : List Token) :
    run place (token :: ts) = run next ts := by
  rw [run, List.foldlM_cons, here]
  rfl

theorem run_singleton (place : Place) (token : Token) : run place [token] = step place token := by
  simp [run]

theorem run_append (first : run place ts = some next) (more : List Token) :
    run place (ts ++ more) = run next more := by
  rw [run] at first
  rw [run, List.foldlM_append, first]
  rfl

end

mutual

/-- A value is given to what it is for, whatever is open around it. -/
theorem run_value (t : Tree) (target : Target) :
    run (.value target) (valueTokens t) = some (give t target) := by
  match t with
  | .text s => rw [valueTokens, run_singleton]; rfl
  | .boolean b => rw [valueTokens, run_singleton]; rfl
  | .array [] => rw [valueTokens, run_cons rfl, arrayTokens, List.nil_append, run_singleton]; rfl
  | .array (t :: items) =>
    calc run (.value target) (valueTokens (.array (t :: items)))
      _ = run (.value (.item [] target)) (arrayTokens (t :: items) ++ [.mark ']']) := by
        rw [valueTokens]
        exact run_cons rfl _
      _ = some (give (.array (t :: items)) target) :=
        run_array (t :: items) (List.cons_ne_nil t items) [] target
  | .map [] => rw [valueTokens, run_cons rfl, mapTokens, List.nil_append, run_singleton]; rfl
  | .map (e :: entries) =>
    calc run (.value target) (valueTokens (.map (e :: entries)))
      _ = run (.name [] target) (mapTokens (e :: entries) ++ [.mark '}']) := by
        rw [valueTokens]
        exact run_cons rfl _
      _ = some (give (.map (e :: entries)) target) :=
        run_map (e :: entries) (List.cons_ne_nil e entries) [] target

/-- The items of an array from one of them on, and its end. -/
theorem run_array (items : List Tree) (more : items ≠ []) (before : List Tree) (outer : Target) :
    run (.value (.item before outer)) (arrayTokens items ++ [.mark ']']) =
      some (give (.array (before ++ items)) outer) := by
  match items with
  | [] => exact absurd rfl more
  | [t] =>
    rw [arrayTokens, run_append (run_value t (.item before outer)), run_singleton]
    rfl
  | t :: next :: items =>
    calc run (.value (.item before outer)) (arrayTokens (t :: next :: items) ++ [.mark ']'])
      _ = run (.value (.item before outer))
          (valueTokens t ++ .mark ',' :: (arrayTokens (next :: items) ++ [.mark ']'])) := by
        rw [arrayTokens, List.append_assoc, List.cons_append]
        exact List.cons_ne_nil next items
      _ = run (.behindItem (before ++ [t]) outer)
          (.mark ',' :: (arrayTokens (next :: items) ++ [.mark ']'])) :=
        run_append (run_value t (.item before outer)) _
      _ = run (.value (.item (before ++ [t]) outer)) (arrayTokens (next :: items) ++ [.mark ']']) :=
        run_cons rfl _
      _ = some (give (.array (before ++ [t] ++ next :: items)) outer) :=
        run_array (next :: items) (List.cons_ne_nil next items) (before ++ [t]) outer
      _ = some (give (.array (before ++ t :: next :: items)) outer) := by
        rw [List.append_assoc, List.singleton_append]

/-- The members of an object from one of them on, and its end. -/
theorem run_map (entries : List (String × Tree)) (more : entries ≠ [])
    (before : List (String × Tree)) (outer : Target) :
    run (.name before outer) (mapTokens entries ++ [.mark '}']) =
      some (give (.map (before ++ entries)) outer) := by
  match entries with
  | [] => exact absurd rfl more
  | [(k, t)] =>
    rw [mapTokens, List.cons_append, List.cons_append, run_cons rfl, run_cons rfl,
      run_append (run_value t (.member before k outer)), run_singleton]
    rfl
  | (k, t) :: next :: entries =>
    calc run (.name before outer) (mapTokens ((k, t) :: next :: entries) ++ [.mark '}'])
      _ = run (.value (.member before k outer))
          (valueTokens t ++ .mark ',' :: (mapTokens (next :: entries) ++ [.mark '}'])) := by
        rw [mapTokens, List.cons_append, List.cons_append, run_cons rfl, run_cons rfl,
          List.append_assoc, List.cons_append]
        exact List.cons_ne_nil next entries
      _ = run (.behindMember (before ++ [(k, t)]) outer)
          (.mark ',' :: (mapTokens (next :: entries) ++ [.mark '}'])) :=
        run_append (run_value t (.member before k outer)) _
      _ = run (.name (before ++ [(k, t)]) outer) (mapTokens (next :: entries) ++ [.mark '}']) :=
        run_cons rfl _
      _ = some (give (.map (before ++ [(k, t)] ++ next :: entries)) outer) :=
        run_map (next :: entries) (List.cons_ne_nil next entries) (before ++ [(k, t)]) outer
      _ = some (give (.map (before ++ (k, t) :: next :: entries)) outer) := by
        rw [List.append_assoc, List.singleton_append]

end

/-! ## Documents -/

theorem read?_value (t : Tree) : read? (value 0 t) = some t := by
  rw [read?, (lexes_value 0 t).whole, Option.bind_some, run_value]
  rfl

/-- What is written as JSON is read as the document itself, all its objects in its order.  So two
documents have one text exactly if they are the same data. -/
theorem read?_encode (doc : Document) :
    read? (encode doc).toList = some doc.tree ∧
      ∀ doc' : Document, encode doc = encode doc' ↔ doc.tree = doc'.tree := by
  have reads : ∀ doc : Document, read? (encode doc).toList = some doc.tree := by
    intro doc
    rw [encode, String.toList_ofList, read?_value]
  refine ⟨reads doc, fun doc' => ⟨fun same => ?_, fun same => ?_⟩⟩
  · have trees := reads doc
    rw [same, reads doc'] at trees
    exact (Option.some.inj trees).symm
  · rw [encode, encode, same]

end BuildScript.Json
