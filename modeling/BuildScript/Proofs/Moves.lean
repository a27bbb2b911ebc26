import BuildScript.Proofs.Reading

/-!
# Moves of the reader

Everything that a step can do to the state, said once, and the steps that do not lead on.  What every
move keeps holds of the state in which a scope ends, however its text reads.
-/

namespace BuildScript

variable {nesting : Nesting} {st next : State} {c : Char} {r rest : List Char} {doc : Document}

/-! ## Steps that lead on -/

/-- What a step before the text `r` can make of the state. -/
inductive Moves (nesting : Nesting) (st : State) (r : List Char) : State → Prop where
  | newLine : Moves nesting st r st.newLine
  /-- The rest of the line does not count. -/
  | lineOver : Moves nesting st r { st with line := .done }
  | inKey {token : String} {line : Line} {c : Char} {rest : List Char}
      (key : st.line = .key token)
      (taken : keyStep st token c r = .next { st with line := line } rest) :
      Moves nesting st r { st with line := line }
  | inValue {key raw : String} (value : st.line = .value key raw) (raw' : String) :
      Moves nesting st r { st with line := .value key raw' }
  /-- A list is a value; what follows it on its line does not count. -/
  | list {key raw : String} (value : st.line = .value key raw) :
      Moves nesting st r { st with
        doc := if key = "" then st.doc else st.doc.add key (.sequence (listItems r).1)
        line := .done }
  /-- A block of dependencies is read to its end in one step. -/
  | dependencies (opens : st.line.blockKey? = some "dependencies")
      (room : nesting.depth + st.outer.length < nesting.limit) :
      Moves nesting st r (st.withBlock "dependencies" (.dependencies (blockDependencies r).1))
  | enter {key : String} (opens : st.line.blockKey? = some key)
      (room : nesting.depth + st.outer.length < nesting.limit) : Moves nesting st r (st.enter key)
  | leave {frame : Frame} {outer : List Frame} (innermost : st.outer = frame :: outer) :
      Moves nesting st r (st.leave frame outer)

theorem moves_of_openBlock {key : String} (opens : st.line.blockKey? = some key)
    (taken : openBlock nesting st key r = .next next rest) : Moves nesting st r next := by
  unfold openBlock at taken
  split at taken
  · cases taken
  · next within =>
    have room := Nat.lt_of_not_le within
    split at taken
    · next special =>
      cases taken
      subst special
      exact .dependencies opens room
    · cases taken
      exact .enter opens room

theorem moves_of_closeBlock (taken : closeBlock nesting st r = .next next rest) :
    Moves nesting st r next := by
  unfold closeBlock at taken
  split at taken
  · next frame outer innermost =>
    cases taken
    exact .leave innermost
  · split at taken
    · cases taken
      exact .newLine
    · cases taken

theorem moves_of_valueStep {key raw : String} (value : st.line = .value key raw)
    (taken : valueStep st key raw c r = .next next rest) : Moves nesting st r next := by
  obtain ⟨kind, doc, line, outer⟩ := st
  cases value
  unfold valueStep at taken
  split at taken
  · cases taken
    exact .inValue rfl raw
  · split at taken
    · cases taken
      exact .list rfl
    · cases taken
      exact .inValue rfl (raw.push c)

theorem moves_of_step (taken : step nesting st c r = .next next rest) : Moves nesting st r next := by
  have fits := role_fits st c
  rw [step_eq_role] at taken
  generalize st.role c = role at fits taken
  cases role with
  | lineBreak =>
    cases taken
    exact .newLine
  | closing => exact moves_of_closeBlock taken
  | behind =>
    obtain ⟨kind, doc, line, outer⟩ := st
    cases fits
    cases taken
    exact .lineOver
  | alternative =>
    cases taken
    exact .lineOver
  | opening key => exact moves_of_openBlock fits.2 taken
  | inKey token =>
    obtain ⟨line, rest', same⟩ := keyStep_eq_next st token c r
    cases same.symm.trans taken
    exact .inKey fits same
  | inValue key raw => exact moves_of_valueStep fits taken

/-- A step adds a block around what is read next only where it opens one. -/
theorem outer_length_of_step (taken : step nesting st c r = .next next rest) :
    next.outer.length ≤ st.outer.length + if (st.opens? c).isSome then 1 else 0 := by
  rcases step_cases nesting st c with ⟨-, closes⟩ | ⟨key, opens⟩ | onward
  · rw [closes] at taken
    unfold closeBlock at taken
    split at taken
    · next frame outer innermost =>
      cases taken
      rw [innermost]
      exact Nat.le_add_right_of_le (Nat.le_succ _)
    · split at taken <;> cases taken
      exact Nat.le_add_right _ _
  · rw [opens]
    cases moves_of_step taken with
    | enter => exact Nat.le_refl _
    | leave innermost =>
      rw [innermost]
      exact Nat.le_trans (Nat.le_succ _) (Nat.le_succ _)
    | _ => exact Nat.le_succ _
  · obtain ⟨next', rest', taken', same⟩ := onward r
    cases taken.symm.trans taken'
    rw [same]
    exact Nat.le_add_right _ _

/-! ## Steps that end a scope -/

/-- A step that ends the scope takes the `}` of a scope that is itself a block. -/
theorem closeBlock_of_step_closed (h : step nesting st c r = .closed doc rest) :
    c = '}' ∧ rest = r ∧ st.outer = [] ∧ 0 < nesting.depth ∧ st.finished = doc := by
  rcases step_cases nesting st c with ⟨closing, same⟩ | ⟨key, opens⟩ | onward
  · rw [same] at h
    unfold closeBlock at h
    split at h
    · cases h
    · next outermost =>
      split at h
      · cases h
      · next inside =>
        cases h
        exact ⟨closing, rfl, outermost, Nat.pos_of_ne_zero inside, rfl⟩
  · rw [step_of_opens? opens] at h
    unfold openBlock at h
    repeat' split at h
    all_goals cases h
  · obtain ⟨next, rest, taken, -⟩ := onward r
    cases h.symm.trans taken

/-- A step that fails would open a block inside as many as the limit allows. -/
theorem openBlock_of_step_tooDeep (h : step nesting st c r = .tooDeep rest) :
    rest = r ∧ (∃ key, st.opens? c = some key) ∧
      nesting.limit ≤ nesting.depth + st.outer.length := by
  rcases step_cases nesting st c with ⟨-, same⟩ | ⟨key, opens⟩ | onward
  · rw [same] at h
    unfold closeBlock at h
    repeat' split at h
    all_goals cases h
  · rw [step_of_opens? opens] at h
    unfold openBlock at h
    split at h
    · next full =>
      cases h
      exact ⟨rfl, ⟨key, opens⟩, full⟩
    · split at h <;> cases h
  · obtain ⟨next, rest, taken, -⟩ := onward r
    cases h.symm.trans taken

/-! ## Runs -/

/-- What every move keeps holds of the state from which the document of a scope is taken. -/
theorem exists_last_of_read {P : State → Prop}
    (kept : ∀ {st next : State} {r : List Char}, P st → Moves nesting st r next → P next)
    {st : State} {s : List Char} (h : P st) (run : read nesting st s = .closed doc rest) :
    ∃ last, P last ∧ unwind last.finished last.kind last.outer = doc := by
  match s with
  | [] =>
    rw [read_nil] at run
    cases run
    exact ⟨st, h, rfl⟩
  | c :: r =>
    cases taken : step nesting st c r with
    | next next rest' =>
      have := (suffix_of_step taken).length_le
      rw [read_of_next taken] at run
      exact exists_last_of_read kept (kept h (moves_of_step taken)) run
    | closed doc' rest' =>
      rw [read_of_closed taken] at run
      cases run
      obtain ⟨-, -, outermost, -, rfl⟩ := closeBlock_of_step_closed taken
      exact ⟨st, h, by rw [outermost]; rfl⟩
    | tooDeep rest' =>
      rw [read_of_tooDeep taken] at run
      cases run
termination_by s.length

/-! ## Limits -/

/-- The number of blocks that are open in a state. -/
def State.depth (nesting : Nesting) (st : State) : Nat := nesting.depth + st.outer.length

/-- Every block that a step opens is paid for with a `{`. -/
theorem depth_of_step (taken : step nesting st c r = .next next rest) :
    next.depth nesting + rest.count '{' ≤ st.depth nesting + (c :: r).count '{' := by
  have outer := outer_length_of_step taken
  have fewer := (suffix_of_step taken).sublist.count_le '{'
  simp only [State.depth]
  cases opens : st.opens? c with
  | none =>
    have more := List.count_le_count_cons (a := '{') (b := c) (l := r)
    simp only [opens, Option.isSome_none, Bool.false_eq_true, if_false] at outer
    omega
  | some key =>
    have brace := eq_opening_of_opens? opens
    simp only [opens, Option.isSome_some, if_true] at outer
    rw [brace, List.count_cons_self]
    omega

/-- Reading fails only where the text has more `{` than blocks may be opened. -/
theorem limit_lt_of_read_tooDeep (st : State) (s : List Char)
    (h : read nesting st s = .tooDeep rest) :
    nesting.limit < st.depth nesting + s.count '{' := by
  match s with
  | [] =>
    rw [read_nil] at h
    cases h
  | c :: r =>
    cases taken : step nesting st c r with
    | next next rest' =>
      have := (suffix_of_step taken).length_le
      rw [read_of_next taken] at h
      exact Nat.lt_of_lt_of_le (limit_lt_of_read_tooDeep next rest' h) (depth_of_step taken)
    | closed doc' rest' =>
      rw [read_of_closed taken] at h
      cases h
    | tooDeep rest' =>
      obtain ⟨-, ⟨key, opens⟩, full⟩ := openBlock_of_step_tooDeep taken
      have brace := eq_opening_of_opens? opens
      rw [brace, List.count_cons_self, State.depth]
      omega
termination_by s.length

/-- A scope comes to its end if as many blocks as it has `{` may be opened. -/
theorem readScope_closes (nesting : Nesting) (kind : ScopeKind) (s : List Char)
    (room : nesting.depth + s.count '{' ≤ nesting.limit) :
    ∃ doc rest, readScope nesting kind s = .closed doc rest := by
  cases run : readScope nesting kind s with
  | closed doc rest => exact ⟨doc, rest, rfl⟩
  | tooDeep rest =>
    have exceeded := limit_lt_of_read_tooDeep (State.start kind) (margin s) run
    have fewer := (margin_suffix s).sublist.count_le '{'
    simp only [State.depth, State.start, List.length_nil] at exceeded
    omega

end BuildScript
