import BuildScript.Proofs.Blocks
import BuildScript.Proofs.Repositories.Entries

/-!
# Keys of scopes in which calls count

Where calls count, every key is read up to the first delimiter, also inside a call.  So no key of a
repositories block or of a block in it holds a delimiter.
-/

namespace BuildScript

open Text Unicode

/-! ## Keys without delimiters -/

def Undelimited (key : String) : Prop := ∀ c ∈ key.toList, isDelimiter c = false

theorem Undelimited.empty : Undelimited "" := fun _ member => absurd member List.not_mem_nil

theorem Undelimited.push {key : String} (h : Undelimited key) {c : Char}
    (goesOn : isDelimiter c = false) : Undelimited (key.push c) := by
  intro d hd
  rw [String.toList_push, List.mem_append, List.mem_singleton] at hd
  rcases hd with earlier | rfl
  · exact h d earlier
  · exact goesOn

theorem endsWords_or_isBlank_of_isDelimiter {c : Char} (h : isDelimiter c = true) :
    endsWords c = true ∨ isBlank c = true := by
  rcases eq_of_isDelimiter h with rfl | rfl | rfl <;> decide

theorem mem_lastWord {s : List Char} {c : Char} (h : c ∈ lastWord s) :
    c ∈ s ∧ isBlank c = false := by
  rw [lastWord, List.mem_reverse] at h
  have inWord : (!isBlank c) = true := List.all_eq_true.1 List.all_takeWhile c h
  have trimmed : c ∈ trimEnd s := List.mem_reverse.1 ((List.takeWhile_prefix _).mem h)
  rw [trimEnd, List.mem_reverse] at trimmed
  exact ⟨List.mem_reverse.1 ((List.dropWhile_suffix _).mem trimmed), by simpa using inWord⟩

/-- The name of a definition is the last word before its `=`. -/
theorem undelimited_definition {s name rest : List Char} (h : definition s = (some name, rest)) :
    Undelimited (String.ofList name) := by
  have same : name = lastWord (s.takeWhile fun c => !endsWords c) := by
    simp only [definition] at h
    split at h <;> cases h <;> rfl
  intro c hc
  rw [String.toList_ofList, same] at hc
  obtain ⟨before, notBlank⟩ := mem_lastWord hc
  have goesOn : (!endsWords c) = true := List.all_eq_true.1 List.all_takeWhile c before
  cases delimiter : isDelimiter c with
  | false => rfl
  | true =>
    rcases endsWords_or_isBlank_of_isDelimiter delimiter with ends | blank
    · simp [ends] at goesOn
    · simp [blank] at notBlank

/-! ## Keys of a document -/

namespace Document

variable {doc : Document} {key k : String} {v : Value}

theorem mem_keys_set (h : k ∈ (doc.set key v).keys) : k ∈ doc.keys ∨ k = key := by
  rw [keys_set] at h
  split at h
  · exact .inl h
  · simpa using h

theorem mem_keys_add (h : k ∈ (doc.add key v).keys) : k ∈ doc.keys ∨ k = key := by
  obtain ⟨w, same⟩ := exists_add_eq_set key v doc
  exact mem_keys_set (same ▸ h)

theorem mem_keys_joinBlock (h : k ∈ (doc.joinBlock key v).keys) : k ∈ doc.keys ∨ k = key := by
  unfold joinBlock at h
  split at h <;> exact mem_keys_set h

end Document

theorem mem_keys_storeBlock {kind : ScopeKind} {key k : String} {v : Value} {doc : Document}
    (h : k ∈ (kind.storeBlock key v doc).keys) : k ∈ doc.keys ∨ k = key := by
  unfold ScopeKind.storeBlock at h
  split at h
  · exact .inl h
  · split at h
    · exact Document.mem_keys_add h
    · exact Document.mem_keys_joinBlock h

theorem mem_keys_storeSetting {kind : ScopeKind} {key raw k : String} {doc : Document}
    (h : k ∈ (kind.storeSetting key raw doc).keys) : k ∈ doc.keys ∨ k = key := by
  unfold ScopeKind.storeSetting at h
  split at h
  · exact .inl h
  · exact Document.mem_keys_add h

/-! ## Scopes that keep calls -/

/-- The key that the line has, as far as it is read. -/
def Line.key? : Line → Option String
  | .key token => some token
  | .value name _ => some name
  | .done => none

theorem key?_of_blockKey? {line : Line} {key : String} (h : line.blockKey? = some key) :
    line.key? = some key := by
  cases line with
  | key token =>
    rw [Line.blockKey?] at h
    split at h
    · cases h
    · exact h
  | value name raw => exact h
  | done => cases h

/-- Where calls count, no key holds a delimiter: neither those of the document nor the one that is
being read. -/
def KeysUndelimited (kind : ScopeKind) (doc : Document) (current : Option String) : Prop :=
  kind.keepsCalls = true → ∀ k, k ∈ doc.keys ∨ k ∈ current → Undelimited k

/-- The same holds in the scope that is read and in those around it. -/
structure State.KeysUndelimited (st : State) : Prop where
  here : BuildScript.KeysUndelimited st.kind st.doc st.line.key?
  around : ∀ frame ∈ st.outer,
    BuildScript.KeysUndelimited frame.kind frame.doc (some frame.key)

variable {kind : ScopeKind} {doc : Document} {line : Line} {st next : State} {nesting : Nesting}
  {c : Char} {r rest : List Char} {current : Option String}

theorem KeysUndelimited.nothingElse (h : KeysUndelimited kind doc current) :
    KeysUndelimited kind doc none :=
  fun keeps k member => h keeps k (member.imp_right fun none => by cases none)

theorem KeysUndelimited.store (h : KeysUndelimited kind doc line.key?) :
    KeysUndelimited kind (line.store kind doc) none := by
  intro keeps k member
  have stored : k ∈ (line.store kind doc).keys := member.resolve_right (by simp)
  cases line with
  | key token => exact h keeps k ((mem_keys_storeSetting stored).imp_right (by rintro rfl; rfl))
  | value name raw =>
    exact h keeps k ((mem_keys_storeSetting stored).imp_right (by rintro rfl; rfl))
  | done => exact h keeps k (.inl stored)

theorem KeysUndelimited.storeBlock {key : String} (h : KeysUndelimited kind doc (some key))
    (value : Value) : KeysUndelimited kind (kind.storeBlock key value doc) none := by
  intro keeps k member
  have stored : k ∈ (kind.storeBlock key value doc).keys := member.resolve_right (by simp)
  exact h keeps k ((mem_keys_storeBlock stored).imp_right (by rintro rfl; rfl))

theorem KeysUndelimited.empty (kind : ScopeKind) : KeysUndelimited kind [] (some "") := by
  rintro - k (member | same)
  · exact absurd member List.not_mem_nil
  · cases same
    exact Undelimited.empty

theorem keysUndelimited_start (kind : ScopeKind) : (State.start kind).KeysUndelimited where
  here := KeysUndelimited.empty kind
  around := fun _ member => absurd member List.not_mem_nil

theorem KeysUndelimited.onLine (h : KeysUndelimited kind doc current) {key : String}
    (whole : kind.keepsCalls = true → Undelimited key) : KeysUndelimited kind doc (some key) := by
  rintro keeps k (member | same)
  · exact h keeps k (.inl member)
  · cases same
    exact whole keeps

theorem State.KeysUndelimited.finished (h : st.KeysUndelimited) :
    BuildScript.KeysUndelimited st.kind st.finished none := h.here.store

theorem State.KeysUndelimited.atKey {key : String} (h : st.KeysUndelimited)
    (named : st.line.key? = some key) :
    BuildScript.KeysUndelimited st.kind st.doc (some key) := named ▸ h.here

/-! ## Moves -/

/-- Where calls count, a key ends at the first delimiter. -/
theorem keysUndelimited_keyStep {token : String} (h : st.KeysUndelimited)
    (line : st.line = .key token) (taken : keyStep st token c r = .next next rest) :
    next.KeysUndelimited := by
  have here := h.atKey (congrArg Line.key? line)
  have done : ({ st with line := .done } : State).KeysUndelimited := ⟨here.nothingElse, h.around⟩
  have fits := keyRole_fits st.kind token c
  rw [keyStep_eq_role] at taken
  generalize keyRole st.kind token c = role at fits taken
  cases role with
  | inWord =>
    cases taken
    exact ⟨here.onLine fun keeps => (here keeps _ (.inr rfl)).push fits, h.around⟩
  | leading =>
    cases taken
    exact h
  | setting =>
    cases taken
    exact ⟨here, h.around⟩
  | call =>
    obtain ⟨line, rest', same⟩ := callStep_eq_next st token (c :: r)
    cases same.symm.trans taken
    exact ⟨fun keeps => absurd keeps (by simp [fits.2.2]), h.around⟩
  | conditional =>
    cases taken
    exact done
  | alternative =>
    cases taken
    exact done
  | definition =>
    rw [KeyRole.step] at taken
    cases named : definition (c :: r) with
    | mk name rest' =>
      rw [named] at taken
      cases name with
      | none =>
        cases taken
        exact done
      | some name =>
        cases taken
        exact ⟨here.onLine fun _ => undelimited_definition named, h.around⟩

theorem keysUndelimited_move (h : st.KeysUndelimited) (moves : Moves nesting st r next) :
    next.KeysUndelimited := by
  cases moves with
  | newLine => exact ⟨h.finished.onLine fun _ => Undelimited.empty, h.around⟩
  | lineOver => exact ⟨h.here.nothingElse, h.around⟩
  | inKey key taken => exact keysUndelimited_keyStep h key taken
  | inValue value raw' => exact ⟨h.atKey (congrArg Line.key? value), h.around⟩
  | list value =>
    have here := h.atKey (congrArg Line.key? value)
    refine ⟨fun keeps k member => ?_, h.around⟩
    have stored := member.resolve_right (by simp [Line.key?])
    dsimp only at stored
    split at stored
    · exact here keeps k (.inl stored)
    · exact here keeps k ((Document.mem_keys_add stored).imp_right (by rintro rfl; rfl))
  | dependencies opens => exact ⟨(h.atKey (key?_of_blockKey? opens)).storeBlock _, h.around⟩
  | enter opens =>
    exact ⟨KeysUndelimited.empty _,
      List.forall_mem_cons.2 ⟨h.atKey (key?_of_blockKey? opens), h.around⟩⟩
  | leave innermost =>
    obtain ⟨first, others⟩ := List.forall_mem_cons.1 (innermost ▸ h.around)
    exact ⟨first.storeBlock _, others⟩

/-! ## Runs -/

theorem keysUndelimited_unwind {outer : List Frame} (here : KeysUndelimited kind doc none)
    (around : ∀ frame ∈ outer, KeysUndelimited frame.kind frame.doc (some frame.key)) :
    KeysUndelimited (State.mk kind doc line outer).scopeKind (unwind doc kind outer) none := by
  induction outer generalizing kind doc with
  | nil => exact here
  | cons frame outer ih =>
    obtain ⟨first, others⟩ := List.forall_mem_cons.1 around
    have same : (State.mk kind doc line (frame :: outer)).scopeKind =
        (State.mk frame.kind (frame.kind.storeBlock frame.key (kind.value doc) frame.doc) line
          outer).scopeKind := by
      cases outer <;> rfl
    rw [same]
    exact ih (first.storeBlock _) others

/-- No key of a scope in which calls count holds a delimiter. -/
theorem keysUndelimited_read {st : State} {s rest : List Char} {doc : Document}
    (h : st.KeysUndelimited) (run : read nesting st s = .closed doc rest) :
    KeysUndelimited st.scopeKind doc none := by
  obtain ⟨last, ⟨undelimited, same⟩, rfl⟩ :=
    exists_last_of_read (P := fun last => last.KeysUndelimited ∧ last.scopeKind = st.scopeKind)
      (fun kept moves => ⟨keysUndelimited_move kept.1 moves, (scopeKind_of_moves moves).trans kept.2⟩)
      ⟨h, rfl⟩ run
  have unwound : KeysUndelimited (State.mk last.kind last.finished last.line last.outer).scopeKind
      (unwind last.finished last.kind last.outer) none :=
    keysUndelimited_unwind undelimited.finished undelimited.around
  exact same ▸ unwound

end BuildScript
