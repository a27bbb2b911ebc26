import BuildScript.Proofs.Toml.Tokens
import BuildScript.Proofs.Toml.Tables

/-!
# Lines of TOML

The grammar of expressions and values in TOML 1.0 as a machine that takes one token after the
other.  Arrays allow line breaks and a comma behind their last item, inline tables allow neither.
Of the values it knows strings, truth values, arrays and inline tables.
-/

namespace BuildScript.Toml

open Text

/-! ## The machine -/

/-- What a value is for, with all that is open around it. -/
inductive Target where
  | line (path : List String)
  | item (items : List Tree) (outer : Target)
  | entry (path : List String) (entries : Entries) (outer : Target)

/-- What a key is for. -/
inductive Naming where
  | header
  | line
  | entry (entries : Entries) (outer : Target)

/-- A place between two tokens. -/
inductive Place where
  | lineStart
  /-- Behind all that a line says. -/
  | lineEnd (e : Expression)
  /-- Before a part of a key. -/
  | part (naming : Naming) (path : List String)
  | behindPart (naming : Naming) (path : List String)
  | value (target : Target)
  | behindItem (items : List Tree) (outer : Target)
  /-- Behind the brace of an inline table. -/
  | opened (outer : Target)
  | behindEntry (entries : Entries) (outer : Target)

/-- The place behind a whole value. -/
def give (t : Tree) : Target → Option Place
  | .line path => some (.lineEnd (.setting path t))
  | .item items outer => some (.behindItem (items ++ [t]) outer)
  | .entry path entries outer =>
    (assign t path entries).map fun entries => .behindEntry entries outer

def partStep (naming : Naming) (path : List String) : Token → Option Place
  | .word k => some (.behindPart naming (path ++ [k]))
  | .string k false => some (.behindPart naming (path ++ [k]))
  | _ => none

def behindPartStep (naming : Naming) (path : List String) : Token → Option Place
  | .mark '.' => some (.part naming path)
  | .mark ']' =>
    match naming with
    | .header => some (.lineEnd (.header path))
    | _ => none
  | .mark '=' =>
    match naming with
    | .header => none
    | .line => some (.value (.line path))
    | .entry entries outer => some (.value (.entry path entries outer))
  | _ => none

/-- Where an array has no item yet, or behind one of its commas, it may end or go on in another
line. -/
def valueStep (target : Target) : Token → Option Place
  | .string s _ => give (.text s) target
  | .word w =>
    if w = "true" then give (.boolean true) target
    else if w = "false" then give (.boolean false) target
    else none
  | .mark '[' => some (.value (.item [] target))
  | .mark '{' => some (.opened target)
  | .mark ']' =>
    match target with
    | .item items outer => give (.array items) outer
    | _ => none
  | .lineBreak =>
    match target with
    | .item items outer => some (.value (.item items outer))
    | _ => none
  | _ => none

def step : Place → Token → Option Place
  | .lineStart, .lineBreak => some .lineStart
  | .lineStart, .mark '[' => some (.part .header [])
  | .lineStart, token => partStep .line [] token
  | .lineEnd _, _ => none
  | .part naming path, token => partStep naming path token
  | .behindPart naming path, token => behindPartStep naming path token
  | .value target, token => valueStep target token
  | .behindItem items outer, .mark ',' => some (.value (.item items outer))
  | .behindItem items outer, .mark ']' => give (.array items) outer
  | .behindItem items outer, .lineBreak => some (.behindItem items outer)
  | .behindItem _ _, _ => none
  | .opened outer, .mark '}' => give (.map []) outer
  | .opened outer, token => partStep (.entry [] outer) [] token
  | .behindEntry entries outer, .mark ',' => some (.part (.entry entries outer) [])
  | .behindEntry entries outer, .mark '}' => give (.map (nodeTrees entries)) outer
  | .behindEntry _ _, _ => none

/-- The place behind the tokens. -/
def run (place : Place) (ts : List Token) : Option Place := ts.foldlM step place

/-- What the lines say, from a place on. -/
def parse : Place → List Token → Option (List Expression)
  | .lineStart, [] => some []
  | .lineEnd e, [] => some [e]
  | _, [] => none
  | .lineEnd e, .lineBreak :: ts => (parse .lineStart ts).map (e :: ·)
  | place, token :: ts => (step place token).bind (parse · ts)

/-- What a text in TOML says, line by line. -/
def expressions (s : List Char) : Option (List Expression) :=
  (tokens s).bind (parse .lineStart)

/-! ## Values -/

theorem step_part_keyToken (naming : Naming) (path : List String) (k : String) :
    step (.part naming path) (keyToken k) = some (.behindPart naming (path ++ [k])) := by
  rw [keyToken]
  split <;> rfl

theorem step_lineStart_keyToken (k : String) :
    step .lineStart (keyToken k) = some (.behindPart .line [k]) := by
  rw [keyToken]
  split <;> rfl

theorem step_opened_keyToken (outer : Target) (k : String) :
    step (.opened outer) (keyToken k) = some (.behindPart (.entry [] outer) [k]) := by
  rw [keyToken]
  split <;> rfl

section

variable {place next : Place} {token : Token} {ts : List Token}

theorem run_cons (here : step place token = some next) (ts : List Token) :
    run place (token :: ts) = run next ts := by
  rw [run, List.foldlM_cons, here]
  rfl

theorem run_singleton (place : Place) (token : Token) : run place [token] = step place token := by
  simp [run]

theorem run_append (first : run place ts = some next) (more : List Token) :
    run place (ts ++ more) = run next more := by
  rw [run] at first
  rw [run, List.foldlM_append, first]
  rfl

/-- An entry of an inline table, from a place where its key may stand. -/
theorem run_entry (before : List (String × Tree)) {k : String} {t : Tree} {outer : Target}
    (new : k ∉ before.map Prod.fst)
    (named : step place (keyToken k) = some (.behindPart (.entry (valueNodes before) outer) [k]))
    (given : run (.value (.entry [k] (valueNodes before) outer)) (valueTokens t) =
      give t (.entry [k] (valueNodes before) outer)) :
    run place (keyToken k :: .mark '=' :: valueTokens t) =
      some (.behindEntry (valueNodes (before ++ [(k, t)])) outer) := by
  have assigned : assign t [k] (valueNodes before) = some (valueNodes (before ++ [(k, t)])) := by
    rw [assign_new (by rwa [keys_valueNodes])]
    simp [valueNodes]
  calc run place (keyToken k :: .mark '=' :: valueTokens t)
    _ = run (.behindPart (.entry (valueNodes before) outer) [k]) (.mark '=' :: valueTokens t) :=
      run_cons named _
    _ = run (.value (.entry [k] (valueNodes before) outer)) (valueTokens t) := run_cons rfl _
    _ = give t (.entry [k] (valueNodes before) outer) := given
    _ = some (.behindEntry (valueNodes (before ++ [(k, t)])) outer) := by
      rw [give, assigned, Option.map_some]

end

mutual

/-- A value is given to what it is for, whatever is open around it. -/
theorem run_value (t : Tree) (target : Target) (h : t.UniqueKeys) :
    run (.value target) (valueTokens t) = give t target := by
  match t with
  | .text s => rw [valueTokens, run_singleton]; rfl
  | .boolean true => rw [valueTokens, run_singleton]; rfl
  | .boolean false => rw [valueTokens, run_singleton]; rfl
  | .array [] => rw [valueTokens, run_cons rfl, run_singleton]; rfl
  | .array (t :: items) =>
    calc run (.value target) (valueTokens (.array (t :: items)))
      _ = run (.value (.item [] target)) (valueTokens t ++ (otherTokens items ++ [.mark ']'])) := by
        rw [valueTokens]
        exact run_cons rfl _
      _ = run (.behindItem [t] target) (otherTokens items ++ [.mark ']']) :=
        run_append (run_value t (.item [] target) h.1) _
      _ = give (.array (t :: items)) target := run_others items [t] target h.2
  | .map [] => rw [valueTokens, run_cons rfl, run_singleton]; rfl
  | .map ((k, t) :: entries) =>
    have first := run_entry [] List.not_mem_nil (step_opened_keyToken target k)
      (run_value t (.entry [k] [] target) h.2.1)
    calc run (.value target) (valueTokens (.map ((k, t) :: entries)))
      _ = run (.opened target) (keyToken k :: .mark '=' :: valueTokens t ++
          (otherEntryTokens entries ++ [.mark '}'])) := by
        rw [valueTokens]
        exact run_cons rfl _
      _ = run (.behindEntry (valueNodes [(k, t)]) target)
          (otherEntryTokens entries ++ [.mark '}']) := run_append first _
      _ = give (.map ((k, t) :: entries)) target :=
        run_otherEntries entries [(k, t)] target h.1 h.2.2

/-- The other items of an array, and its end. -/
theorem run_others (items before : List Tree) (outer : Target) (h : treesUnique items) :
    run (.behindItem before outer) (otherTokens items ++ [.mark ']']) =
      give (.array (before ++ items)) outer := by
  match items with
  | [] =>
    rw [otherTokens, List.nil_append, run_singleton, List.append_nil]
    rfl
  | t :: items =>
    calc run (.behindItem before outer) (otherTokens (t :: items) ++ [.mark ']'])
      _ = run (.value (.item before outer))
          (valueTokens t ++ (otherTokens items ++ [.mark ']'])) := by
        rw [otherTokens, List.cons_append, List.append_assoc]
        exact run_cons rfl _
      _ = run (.behindItem (before ++ [t]) outer) (otherTokens items ++ [.mark ']']) :=
        run_append (run_value t (.item before outer) h.1) _
      _ = give (.array (before ++ [t] ++ items)) outer :=
        run_others items (before ++ [t]) outer h.2
      _ = give (.array (before ++ t :: items)) outer := by
        rw [List.append_assoc, List.singleton_append]

/-- The other entries of an inline table, and its end. -/
theorem run_otherEntries (entries before : List (String × Tree)) (outer : Target)
    (keys : (before.map Prod.fst ++ entries.map Prod.fst).Nodup) (h : entryTreesUnique entries) :
    run (.behindEntry (valueNodes before) outer) (otherEntryTokens entries ++ [.mark '}']) =
      give (.map (before ++ entries)) outer := by
  match entries with
  | [] =>
    rw [otherEntryTokens, List.nil_append, run_singleton, step, nodeTrees_valueNodes,
      List.append_nil]
  | (k, t) :: entries =>
    have first := run_entry before (new_of_nodup keys)
      (step_part_keyToken (.entry (valueNodes before) outer) [] k)
      (run_value t (.entry [k] (valueNodes before) outer) h.1)
    calc run (.behindEntry (valueNodes before) outer)
          (otherEntryTokens ((k, t) :: entries) ++ [.mark '}'])
      _ = run (.part (.entry (valueNodes before) outer) []) (keyToken k :: .mark '=' ::
          valueTokens t ++ (otherEntryTokens entries ++ [.mark '}'])) := by
        rw [otherEntryTokens, List.cons_append, List.cons_append, List.cons_append,
          List.append_assoc]
        exact run_cons rfl _
      _ = run (.behindEntry (valueNodes (before ++ [(k, t)])) outer)
          (otherEntryTokens entries ++ [.mark '}']) := run_append first _
      _ = give (.map (before ++ [(k, t)] ++ entries)) outer :=
        run_otherEntries entries (before ++ [(k, t)]) outer (by simpa using keys) h.2
      _ = give (.map (before ++ (k, t) :: entries)) outer := by
        rw [List.append_assoc, List.singleton_append]

end

/-! ## Lines -/

theorem parse_append {ts : List Token} {place behind : Place} (h : run place ts = some behind)
    (rest : List Token) : parse place (ts ++ rest) = parse behind rest := by
  induction ts generalizing place with
  | nil =>
    cases h
    rfl
  | cons token ts ih =>
    rw [run, List.foldlM_cons] at h
    obtain ⟨next, here, others⟩ := Option.bind_eq_some_iff.1 h
    -- no step starts at the end of a line, so the line break there is not in the run
    have inside : parse place (token :: (ts ++ rest)) =
        (step place token).bind (parse · (ts ++ rest)) := by
      cases place with
      | lineEnd e => cases here
      | _ => rfl
    rw [List.cons_append, inside, here, Option.bind_some, ih others]

/-- The text says the given, whatever follows it. -/
def Says (s : List Char) (es : List Expression) : Prop :=
  ∀ rest, expressions (s ++ rest) = (expressions rest).map (es ++ ·)

theorem says_nil : Says [] [] := fun rest => by simp

theorem Says.append {s s' : List Char} {es es' : List Expression} (first : Says s es)
    (more : Says s' es') : Says (s ++ s') (es ++ es') := by
  intro rest
  rw [List.append_assoc, first, more, Option.map_map]
  congr 1
  funext others
  exact (List.append_assoc es es' others).symm

theorem Says.whole {s : List Char} {es : List Expression} (h : Says s es) :
    expressions s = some es := by
  have := h []
  rw [List.append_nil] at this
  rw [this, expressions, tokens]
  simp [parse]

theorem says_lineBreak : Says ['\n'] [] := by
  intro rest
  rw [List.singleton_append, expressions, tokens_lineBreak]
  cases h : tokens rest with
  | none => simp [expressions, h]
  | some ts => simp [expressions, h, parse, step]

/-- A line whose tokens lead to its end. -/
theorem says_line {s : List Char} {ts : List Token} {e : Expression}
    (lexes : ∀ rest, Lexes s ts ('\n' :: rest))
    (ends : run .lineStart ts = some (.lineEnd e)) : Says (s ++ ['\n']) [e] := by
  intro rest
  have whole := lexes rest
  rw [Lexes, tokens_lineBreak, Option.map_map] at whole
  rw [List.append_assoc, List.singleton_append, expressions, whole]
  cases h : tokens rest with
  | none => simp [expressions, h]
  | some more => simp [expressions, h, parse_append ends, parse]

theorem endsToken_lineBreak (rest : List Char) : EndsToken ('\n' :: rest) :=
  endsToken_cons (by decide) rest

theorem says_setting (k : String) {v : Inline} (unique : v.tree.UniqueKeys) :
    Says (key k ++ " = ".toList ++ value v ++ ['\n']) [.setting [k] v.tree] := by
  refine says_line (fun rest => lexes_setting k (lexes_value v _ (endsToken_lineBreak rest))) ?_
  calc run .lineStart (keyToken k :: .mark '=' :: valueTokens v.tree)
    _ = run (.behindPart .line [k]) (.mark '=' :: valueTokens v.tree) :=
      run_cons (step_lineStart_keyToken k) _
    _ = run (.value (.line [k])) (valueTokens v.tree) := run_cons rfl _
    _ = some (.lineEnd (.setting [k] v.tree)) := run_value v.tree (.line [k]) unique

/-! ## Headers -/

/-- The parts of a key behind its first one. -/
def otherPartTokens : List String → List Token
  | [] => []
  | k :: path => .mark '.' :: keyToken k :: otherPartTokens path

theorem endsToken_otherParts (path : List String) {rest : List Char} (stop : EndsToken rest) :
    EndsToken ((path.map key).flatMap (['.'] ++ ·) ++ rest) := by
  cases path with
  | nil => exact stop
  | cons k path => exact endsToken_cons (by decide) _

theorem lexes_otherParts (path : List String) {rest : List Char} (stop : EndsToken rest) :
    Lexes ((path.map key).flatMap (['.'] ++ ·)) (otherPartTokens path) rest := by
  induction path with
  | nil => exact lexes_nil
  | cons k path ih =>
    have ends := endsToken_otherParts path stop
    exact (Lexes.append (lexes_mark (by decide)) (lexes_key k ends)).append ih

theorem run_otherParts (path before : List String) :
    run (.behindPart .header before) (otherPartTokens path) =
      some (.behindPart .header (before ++ path)) := by
  induction path generalizing before with
  | nil =>
    rw [List.append_nil]
    rfl
  | cons k path ih =>
    calc run (.behindPart .header before) (.mark '.' :: keyToken k :: otherPartTokens path)
      _ = run (.part .header before) (keyToken k :: otherPartTokens path) := run_cons rfl _
      _ = run (.behindPart .header (before ++ [k])) (otherPartTokens path) :=
        run_cons (step_part_keyToken .header before k) _
      _ = some (.behindPart .header (before ++ [k] ++ path)) := ih (before ++ [k])
      _ = some (.behindPart .header (before ++ k :: path)) := by
        rw [List.append_assoc, List.singleton_append]

theorem says_header {path : List String} (named : path ≠ []) :
    Says (header path ++ ['\n']) [.header path] := by
  obtain ⟨k, path, rfl⟩ := List.exists_cons_of_ne_nil named
  have text : header (k :: path) =
      ['['] ++ (key k ++ ((path.map key).flatMap (['.'] ++ ·) ++ [']'])) := by
    simp [header, joined_eq_append_flatMap]
  have closing : ∀ rest, EndsToken (']' :: rest) := endsToken_cons (by decide)
  have ends : ∀ rest, EndsToken ((path.map key).flatMap (['.'] ++ ·) ++ [']'] ++ rest) := by
    intro rest
    rw [List.append_assoc]
    exact endsToken_otherParts path (closing rest)
  rw [text]
  refine says_line (fun rest => (lexes_mark (by decide)).append ((lexes_key k (ends _)).append
    ((lexes_otherParts path (closing _)).append (lexes_mark (by decide))))) ?_
  calc run .lineStart (.mark '[' :: keyToken k :: (otherPartTokens path ++ [.mark ']']))
    _ = run (.part .header []) (keyToken k :: (otherPartTokens path ++ [.mark ']'])) :=
      run_cons rfl _
    _ = run (.behindPart .header [k]) (otherPartTokens path ++ [.mark ']']) :=
      run_cons (step_part_keyToken .header [] k) _
    _ = run (.behindPart .header (k :: path)) [.mark ']'] := run_append (run_otherParts path [k]) _
    _ = some (.lineEnd (.header (k :: path))) := rfl

end BuildScript.Toml
