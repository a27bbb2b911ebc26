import BuildScript.Proofs.Locality.Reading

/-!
# Blocks as scopes of their own

A block is read like a scope of its own inside one more block.  When the `}` that closes it has been
read, its value is stored under its key and the scope around it goes on behind the `}`.
-/

namespace BuildScript

/-! ## Steps in a block -/

/-- The state inside one more block of the given frame, which stands in further scopes. -/
def State.inside (frame : Frame) (outer : List Frame) (st : State) : State :=
  { st with outer := st.outer ++ frame :: outer }

/-- The kind of the outermost scope of the state. -/
def State.scopeKind (st : State) : ScopeKind :=
  match st.outer.getLast? with
  | some frame => frame.kind
  | none => st.kind

/-- The state behind a block of the given kind that has ended with a document. -/
def Frame.resumed (frame : Frame) (outer : List Frame) (kind : ScopeKind) (doc : Document) :
    State :=
  ⟨frame.kind, frame.kind.storeBlock frame.key (kind.value doc) frame.doc, .done, outer⟩

/-- What a step of a scope comes to when the scope is the block of the frame. -/
def Step.inside (frame : Frame) (outer : List Frame) (kind : ScopeKind) : Step → Step
  | .next st rest => .next (st.inside frame outer) rest
  | .closed doc rest => .next (frame.resumed outer kind doc) rest
  | .tooDeep rest => .tooDeep rest

variable {limit depth : Nat} {frame : Frame} {outer : List Frame} {st : State} {c : Char}
  {r rest : List Char}

theorem State.scopeKind_of_outer {next : State} (outer : next.outer = st.outer)
    (kind : next.kind = st.kind) : next.scopeKind = st.scopeKind := by
  rw [scopeKind, scopeKind, outer, kind]

theorem openBlock_inside (key : String) :
    openBlock ⟨limit, depth⟩ (st.inside frame outer) key r =
      (openBlock ⟨limit, depth + outer.length + 1⟩ st key r).inside frame outer st.scopeKind := by
  have around : depth + (st.inside frame outer).outer.length =
      depth + outer.length + 1 + st.outer.length := by
    simp only [State.inside, List.length_append, List.length_cons]
    omega
  simp only [openBlock, around]
  split
  · rfl
  · split <;> rfl

theorem closeBlock_inside :
    closeBlock ⟨limit, depth⟩ (st.inside frame outer) r =
      (closeBlock ⟨limit, depth + outer.length + 1⟩ st r).inside frame outer st.scopeKind := by
  obtain ⟨kind, doc, line, around⟩ := st
  cases around with
  | nil =>
    rfl
  | cons first around => rfl

theorem callStep_inside (token : String) (s : List Char) :
    callStep (st.inside frame outer) token s =
      (callStep st token s).inside frame outer st.scopeKind := by
  simp only [callStep]
  split <;> rfl

theorem keyStep_inside (token : String) :
    keyStep (st.inside frame outer) token c r =
      (keyStep st token c r).inside frame outer st.scopeKind := by
  rw [keyStep_eq_role, keyStep_eq_role, show (st.inside frame outer).kind = st.kind from rfl]
  cases keyRole st.kind token c with
  | call => exact callStep_inside token (c :: r)
  | definition =>
    rw [KeyRole.step, KeyRole.step]
    obtain ⟨name | name, rest⟩ := definition (c :: r) <;> rfl
  | _ => rfl

theorem valueStep_inside (key raw : String) :
    valueStep (st.inside frame outer) key raw c r =
      (valueStep st key raw c r).inside frame outer st.scopeKind := by
  unfold valueStep
  repeat' split
  all_goals rfl

/-- A step in a block is the step of a scope of its own, with all blocks around it counted. -/
theorem step_inside :
    step ⟨limit, depth⟩ (st.inside frame outer) c r =
      (step ⟨limit, depth + outer.length + 1⟩ st c r).inside frame outer st.scopeKind := by
  rw [step_eq_role, step_eq_role, show (st.inside frame outer).role c = st.role c from rfl]
  cases st.role c with
  | closing => exact closeBlock_inside
  | opening key => exact openBlock_inside key
  | inKey token => exact keyStep_inside token
  | inValue key raw => exact valueStep_inside key raw
  | _ => rfl

theorem scopeKind_of_moves {nesting : Nesting} {next : State} (h : Moves nesting st r next) :
    next.scopeKind = st.scopeKind := by
  cases h with
  | enter =>
    obtain ⟨kind, doc, line, around⟩ := st
    cases around <;> rfl
  | @leave first around innermost =>
    obtain ⟨kind, doc, line, outer⟩ := st
    cases innermost
    cases around <;> rfl
  | _ => exact State.scopeKind_of_outer rfl rfl

/-- Reading goes on with the same outermost scope. -/
theorem scopeKind_of_step {nesting : Nesting} {next : State}
    (taken : step nesting st c r = .next next rest) : next.scopeKind = st.scopeKind :=
  scopeKind_of_moves (moves_of_step taken)

/-! ## Reading a block -/

/-- What a reading of a scope comes to when the scope is the block of the frame. -/
def Reading.inside (nesting : Nesting) (frame : Frame) (outer : List Frame) (kind : ScopeKind) :
    Reading → Reading
  | .closed doc rest => read nesting (frame.resumed outer kind doc) rest
  | .tooDeep rest => .tooDeep rest

/-- At the end of the text the blocks of a scope are over before the blocks around it. -/
theorem unwind_inside (doc : Document) (kind : ScopeKind) (line : Line) (inner : List Frame) :
    unwind doc kind (inner ++ frame :: outer) =
      unwind (frame.kind.storeBlock frame.key
        ((State.mk kind doc line inner).scopeKind.value (unwind doc kind inner)) frame.doc)
          frame.kind outer := by
  induction inner generalizing doc kind with
  | nil => rfl
  | cons first inner ih =>
    have same : (State.mk kind doc line (first :: inner)).scopeKind =
        (State.mk first.kind doc line inner).scopeKind := by
      cases inner <;> rfl
    rw [List.cons_append, unwind, unwind, ih, same]
    rfl

/-- A block is read as a scope of its own, with all blocks around it counted. -/
theorem read_inside (limit depth : Nat) (frame : Frame) (outer : List Frame) (st : State)
    (s : List Char) :
    read ⟨limit, depth⟩ (st.inside frame outer) s =
      (read ⟨limit, depth + outer.length + 1⟩ st s).inside ⟨limit, depth⟩ frame outer
        st.scopeKind := by
  match s with
  | [] =>
    rw [read_nil, read_nil, Reading.inside, read_nil]
    exact congrArg (Reading.closed · []) (unwind_inside st.finished st.kind st.line st.outer)
  | c :: r =>
    have inside : step ⟨limit, depth⟩ (st.inside frame outer) c r =
        (step ⟨limit, depth + outer.length + 1⟩ st c r).inside frame outer st.scopeKind := step_inside
    cases taken : step ⟨limit, depth + outer.length + 1⟩ st c r with
    | next next rest =>
      have := (suffix_of_step taken).length_le
      rw [taken] at inside
      rw [read_of_next inside, read_of_next taken, read_inside, scopeKind_of_step taken]
    | closed doc rest =>
      rw [taken] at inside
      rw [read_of_next inside, read_of_closed taken]
      rfl
    | tooDeep rest =>
      rw [taken] at inside
      rw [read_of_tooDeep inside, read_of_tooDeep taken]
      rfl
termination_by s.length

/-- A text that a scope is read from up to its `}` is read in the same way before every text. -/
theorem stops_of_readScope {nesting : Nesting} {kind : ScopeKind} {chars behind : List Char}
    {doc : Document} (more : behind ≠ [])
    (run : readScope nesting kind (chars ++ '}' :: behind) = .closed doc behind)
    (rest : List Char) :
    Stops nesting (State.start kind) (margin (chars ++ '}' :: rest)) (.closed doc rest) := by
  have stops : Stops nesting (State.start kind) (margin (chars ++ '}' :: behind))
      (.closed doc behind) := by
    rcases stops_or_ends nesting (State.start kind) (margin (chars ++ '}' :: behind)) with
      stops | ⟨doc', ends⟩
    · rwa [← readScope, run] at stops
    · cases ends.symm.trans run
      exact absurd rfl more
  obtain ⟨p, text⟩ := stops.eq_append
  have longer : behind.length < (margin (chars ++ '}' :: behind)).length := by
    rw [text, List.length_append, List.length_cons]
    exact Nat.lt_of_lt_of_le (Nat.lt_succ_self _) (Nat.le_add_left _ _)
  exact stops.agree (margin_local (agree_of_append (.inr rfl) chars behind rest) longer)

/-! ## Blocks with their values -/

/-- The value of the block of a key from behind its `{`, and the text behind its `}`, unless the limit
on nesting is exceeded in it. -/
def blockValue? (nesting : Nesting) (kind : ScopeKind) (key : String) (s : List Char) :
    Option (Value × List Char) :=
  if key = "dependencies" then some (.dependencies (blockDependencies s).1, (blockDependencies s).2)
  else match readScope ⟨nesting.limit, nesting.depth + 1⟩ (kind.ofBlock key) s with
    | .closed doc rest => some ((kind.ofBlock key).value doc, rest)
    | .tooDeep _ => none

/-- The text of the block of a key and the value that is read from it.  Its `}` is the one that ends
the block. -/
structure BlockBody (nesting : Nesting) (kind : ScopeKind) (key : String) where
  chars : List Char
  value : Value
  room : nesting.depth < nesting.limit
  closes : blockValue? nesting kind key (chars ++ ['}', '\n']) = some (value, ['\n'])

/-- A text that is a block of dependencies up to its `}` declares the same before every text. -/
theorem blockDependencies_append {chars behind : List Char} {declared : List Dependency}
    (more : behind ≠ [])
    (run : blockDependencies (chars ++ '}' :: behind) = (declared, behind)) (rest : List Char) :
    blockDependencies (chars ++ '}' :: rest) = (declared, rest) := by
  have left : (afterDependencies? (chars ++ '}' :: behind)).getD [] = behind := by
    rw [afterDependencies?, ← statements_snd 0 none "" (margin (chars ++ '}' :: behind))]
    exact congrArg Prod.snd run
  cases ends : afterDependencies? (chars ++ '}' :: behind) with
  | none =>
    rw [ends] at left
    exact absurd left.symm more
  | some found =>
    rw [ends] at left
    cases left
    obtain ⟨consumed, same, everywhere⟩ := blockDependencies_of_ends ends
    rw [List.append_cancel_right same, everywhere, run]

/-- A block is read to its `}`, and its value is stored under its key. -/
theorem read_blockBody {kind : ScopeKind} {doc : Document} {line : Line} {key : String}
    (opens : line.blockKey? = some key) (body : BlockBody ⟨limit, depth + outer.length⟩ kind key)
    (rest : List Char) :
    read ⟨limit, depth⟩ ⟨kind, doc, line, outer⟩ ('{' :: (body.chars ++ '}' :: rest)) =
      read ⟨limit, depth⟩ ⟨kind, kind.storeBlock key body.value doc, .done, outer⟩ rest := by
  have more : ['\n'] ≠ [] := List.cons_ne_nil _ _
  have closes := body.closes
  unfold blockValue? at closes
  split at closes
  · next special =>
    subst special
    obtain ⟨declared, left⟩ := Prod.mk.inj (Option.some.inj closes)
    have run : blockDependencies (body.chars ++ ['}', '\n']) =
        ((blockDependencies (body.chars ++ ['}', '\n'])).1, ['\n']) := Prod.ext rfl left
    rw [read_dependencies opens body.room, blockDependencies_append more run, ← declared]
  · next document =>
    split at closes
    · next inner left run =>
      obtain ⟨value, here⟩ := Prod.mk.inj (Option.some.inj closes)
      cases here
      let frame : Frame := ⟨key, kind, doc⟩
      have stops := stops_of_readScope more run rest
      have inside := read_inside limit depth frame outer (State.start (kind.ofBlock key))
        (margin (body.chars ++ '}' :: rest))
      rw [read_of_stops stops, Reading.inside] at inside
      rw [read_opening opens document body.room, ← value]
      exact inside
    · cases closes

end BuildScript
