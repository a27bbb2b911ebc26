import BuildScript.Proofs.Attributes
import BuildScript.Proofs.Moves
import BuildScript.Proofs.WellFormed.Value

/-!
# Every document that is read is well-formed

Values enter a document when a line ends, with a list, and when a block closes.  All of them fit in
the room that the limit on nesting leaves inside the blocks around them, and every step of the reader
keeps it so.
-/

namespace BuildScript

open Text

/-! ## Declarations -/

theorem isAttributeName_of_isIdentifier {s : List Char} (h : isIdentifier s = true) :
    IsAttributeName (String.ofList s) := by
  cases s with
  | nil => cases h
  | cons c r =>
    obtain ⟨first, others⟩ := Bool.and_eq_true_iff.1 h
    refine ⟨c, r, by simp, by simpa [isIdentifierStart] using first, ?_⟩
    intro d hd
    simpa using List.all_eq_true.1 others d hd

theorem isAttributeName_of_mem_namedArguments {s : List Char} {pair : String × String}
    (h : pair ∈ namedArguments s) : IsAttributeName pair.1 := by
  obtain ⟨given, member, same⟩ := names_ofPairs _ h
  obtain ⟨argument, -, named⟩ := List.mem_filterMap.1 member
  rw [same]
  unfold namedArgument? at named
  split at named
  · cases named
  · split at named
    · next identifier =>
      cases named
      exact isAttributeName_of_isIdentifier identifier
    · cases named

theorem excludeRule?_wellFormed {line : List Char} {rule : Attributes}
    (h : excludeRule? line = some rule) :
    rule ≠ [] ∧ ∀ pair ∈ rule, IsAttributeName pair.1 := by
  unfold excludeRule? at h
  split at h
  · cases h
  · split at h
    · cases h
    · split at h
      · cases h
      · next nonempty =>
        cases h
        exact ⟨nonempty, fun pair member => isAttributeName_of_mem_namedArguments member⟩

theorem isKind_of_keyword {statement : List Char}
    (nonempty : String.ofList (statement.takeWhile isKeywordChar) ≠ "")
    (declares : controlKeywords.contains (String.ofList (statement.takeWhile isKeywordChar)) = false) :
    IsKind (String.ofList (statement.takeWhile isKeywordChar)) := by
  refine ⟨nonempty, ?_, ?_⟩
  · intro c hc
    have : isKeywordChar c = true :=
      List.all_eq_true.1 List.all_takeWhile c (by simpa using hc)
    simpa [isKeywordChar, or_assoc] using this
  · simpa [controlKeywords] using declares

theorem wellFormed_of_mem_declarations {statement : List Char} {d : Dependency}
    (h : d ∈ declarations statement) : d.WellFormed := by
  simp only [declarations] at h
  split at h
  · cases h
  · next declared =>
    obtain ⟨c, -, rfl⟩ := List.mem_map.1 h
    simp only [Bool.or_eq_true, not_or, decide_eq_true_eq, Bool.not_eq_true] at declared
    refine ⟨isKind_of_keyword declared.1.1 declared.1.2, ?_⟩
    intro rule member
    cases block : (splitBlock 0 none (statement.dropWhile isKeywordChar)).2 with
    | none => simp [block] at member
    | some block' =>
      simp only [block, Option.map_some, Option.getD_some] at member
      obtain ⟨line, -, found⟩ := List.mem_filterMap.1 member
      exact excludeRule?_wellFormed found

variable {room : Nat} {key : String}

theorem fits_blockDependencies (s : List Char) (some_ : 1 ≤ room) :
    (Value.dependencies (blockDependencies s).1).Fits room (.entry "dependencies") := by
  refine Value.fits_dependencies_iff.2 ⟨some_, rfl, ?_⟩
  intro d member
  obtain ⟨statement, -, declared⟩ := List.mem_flatMap.1 member
  exact wellFormed_of_mem_declarations declared

/-! ## Repository entries -/

theorem fits_repositoryEntry {v : Value} (named : key ≠ "") (fits : v.Fits room (.item key)) :
    (repositoryEntry key v).Fits room := by
  unfold repositoryEntry
  split
  · exact named
  · next notEmpty => exact ⟨named, fits.data (by simpa using notEmpty)⟩

theorem fits_repositoryEntries {body : Document} (fits : body.Fits room) :
    (Value.repositories (repositoryEntries body)).Fits (room + 1) (.entry "repositories") := by
  refine Value.fits_repositories_iff.2 ⟨Nat.le_add_left 1 room, rfl, ?_⟩
  intro entry member
  obtain ⟨⟨key, v⟩, inBody, made⟩ := List.mem_flatMap.1 member
  obtain ⟨named, fits⟩ := fits _ inBody
  simp only at made
  split at made
  · obtain ⟨item, inItems, rfl⟩ := List.mem_map.1 made
    exact fits_repositoryEntry named (Value.fits_sequence_iff.1 fits item inItems)
  · next single =>
    rw [List.mem_singleton.1 made]
    exact fits_repositoryEntry named (fits.item single)

/-! ## Lines -/

theorem fits_classify (raw : List Char) {place : ValuePlace} (h : ∀ type, place ≠ .data type) :
    (classify raw).Fits room place := by
  unfold classify
  dsimp only
  split
  · exact Value.fits_boolean true
  · split
    · exact Value.fits_boolean false
    · exact Value.fits_text h

theorem fits_listItems (s : List Char) {place : ValuePlace} :
    (Value.sequence (listItems s).1).Fits room place := by
  refine Value.fits_sequence_iff.2 fun v member => ?_
  have text : ∃ t, v = .text t := by
    unfold listItems at member
    dsimp only at member
    split at member
    · cases member
    · obtain ⟨item, -, rfl⟩ := List.mem_map.1 member
      exact ⟨_, rfl⟩
  obtain ⟨t, rfl⟩ := text
  cases place <;> exact Value.fits_text (by simp [ValuePlace.ofItems])

theorem Document.Fits.storeSetting {doc : Document} (fits : doc.Fits room) (kind : ScopeKind)
    (key raw : String) : (kind.storeSetting key raw doc).Fits room := by
  unfold ScopeKind.storeSetting
  split
  · exact fits
  · next counts =>
    have named : key ≠ "" := by
      rintro rfl
      simp at counts
    exact fits.add named (fits_classify _ (by simp)) (fits_classify _ (by simp))

theorem Document.Fits.store {doc : Document} (fits : doc.Fits room) (kind : ScopeKind)
    (line : Line) : (line.store kind doc).Fits room := by
  cases line with
  | key token => exact fits.storeSetting kind token ""
  | value name raw => exact fits.storeSetting kind name raw
  | done => exact fits

theorem Document.Fits.storeBlock {doc : Document} {v : Value} (fits : doc.Fits room)
    (kind : ScopeKind) (block : key ≠ "" → v.Fits room (.entry key))
    (single : ∀ items, v ≠ .sequence items) : (kind.storeBlock key v doc).Fits room := by
  unfold ScopeKind.storeBlock
  split
  · exact fits
  · next named =>
    split
    · exact fits.add named (block named) ((block named).item single)
    · exact fits.joinBlock named (block named)

/-! ## Scopes -/

/-- The documents of the scopes around one of the given kind fit in the room that the limit leaves
each of them.  Only the block of the key `repositories` is read as repositories. -/
def FramesFit (limit : Nat) (kind : ScopeKind) : List Frame → Prop
  | [] => True
  | frame :: outer =>
    (outer.length < limit ∧ (kind = .repositories → frame.key = "repositories")) ∧
      frame.doc.Fits (limit - outer.length) ∧ FramesFit limit frame.kind outer

/-- What is read so far fits in the room inside the blocks around it. -/
structure State.Fits (limit : Nat) (st : State) : Prop where
  doc : st.doc.Fits (limit - st.outer.length)
  outer : FramesFit limit st.kind st.outer

variable {limit : Nat} {kind : ScopeKind} {doc : Document}

/-- The scope that ends is the value of a block that fits in the scope around it. -/
theorem fits_value {frame : Frame} (record : kind = .repositories → frame.key = "repositories")
    (fits : doc.Fits room) : (kind.value doc).Fits (room + 1) (.entry frame.key) := by
  cases kind with
  | script => exact Value.fits_document_iff.2 fits
  | repository => exact Value.fits_document_iff.2 fits
  | repositories =>
    rw [record rfl]
    exact fits_repositoryEntries fits

theorem value_ne_sequence (kind : ScopeKind) (doc : Document) (items : List Value) :
    kind.value doc ≠ .sequence items := by
  cases kind <;> simp [ScopeKind.value]

theorem fits_leave {frame : Frame} {outer : List Frame}
    (fits : doc.Fits (limit - (outer.length + 1))) (around : FramesFit limit kind (frame :: outer)) :
    (frame.kind.storeBlock frame.key (kind.value doc) frame.doc).Fits (limit - outer.length) := by
  obtain ⟨⟨inside, record⟩, before, -⟩ := around
  have more : limit - outer.length = limit - (outer.length + 1) + 1 := by omega
  refine before.storeBlock frame.kind (fun _ => ?_) (value_ne_sequence kind doc)
  rw [more]
  exact fits_value record fits

theorem fits_unwind {outer : List Frame} (fits : doc.Fits (limit - outer.length))
    (around : FramesFit limit kind outer) : (unwind doc kind outer).Fits limit := by
  induction outer generalizing doc kind with
  | nil => exact fits
  | cons frame outer ih => exact ih (fits_leave fits around) around.2.2

theorem State.Fits.finished {st : State} (h : st.Fits limit) :
    st.finished.Fits (limit - st.outer.length) :=
  h.doc.store st.kind st.line

theorem ofBlock_repositories {key : String} (h : kind.ofBlock key = .repositories) :
    key = "repositories" := by
  unfold ScopeKind.ofBlock at h
  split at h
  · assumption
  · split at h <;> cases h

/-! ## Moves -/

theorem fits_move {st next : State} {r : List Char} (h : st.Fits limit)
    (moves : Moves ⟨limit, 0⟩ st r next) : next.Fits limit := by
  cases moves with
  | newLine => exact ⟨h.finished, h.outer⟩
  | lineOver => exact ⟨h.doc, h.outer⟩
  | inKey => exact ⟨h.doc, h.outer⟩
  | inValue => exact ⟨h.doc, h.outer⟩
  | list =>
    refine ⟨?_, h.outer⟩
    dsimp only
    split
    · exact h.doc
    · next named => exact h.doc.add named (fits_listItems r) (fits_listItems r)
  | dependencies opens room =>
    have inside : st.outer.length < limit := by simpa using room
    have declared : (Value.dependencies (blockDependencies r).1).Fits
        (limit - st.outer.length) (.entry "dependencies") := fits_blockDependencies r (by omega)
    exact ⟨h.doc.storeBlock st.kind (fun _ => declared) (by simp), h.outer⟩
  | enter opens room =>
    have inside : st.outer.length < limit := by simpa using room
    exact ⟨fun entry member => absurd member List.not_mem_nil,
      ⟨⟨inside, ofBlock_repositories⟩, h.doc, h.outer⟩⟩
  | leave innermost =>
    obtain ⟨kind, doc, line, outer⟩ := st
    cases innermost
    exact ⟨fits_leave h.finished h.outer, h.outer.2.2⟩

/-- What is read from a state that fits is a document that fits. -/
theorem fits_read {st : State} {s rest : List Char} {doc : Document} (h : st.Fits limit)
    (run : read ⟨limit, 0⟩ st s = .closed doc rest) : doc.Fits limit := by
  obtain ⟨last, fits, rfl⟩ := exists_last_of_read fits_move h run
  exact fits_unwind fits.finished fits.outer

theorem fits_start (limit : Nat) (kind : ScopeKind) : (State.start kind).Fits limit where
  doc := fun _ member => absurd member List.not_mem_nil
  outer := trivial

theorem fits_of_parseText {options : ParseOptions} {input : String} {doc : Document}
    (h : parseText options input = .ok doc) : doc.Fits options.maxDepth := by
  unfold parseText at h
  split at h
  · cases h
  · dsimp only at h
    split at h
    · next run =>
      cases h
      exact fits_read (fits_start options.maxDepth .script) run
    · cases h

/-! ## Scripts -/

/-- Every document that is read from a script is well-formed at every depth, and no value of it has
more blocks nested in each other than the limit allows. -/
theorem parseText_wellFormed {options : ParseOptions} {input : String} {doc : Document}
    (h : parseText options input = .ok doc) :
    doc.WellFormed ∧ ∀ entry ∈ doc, entry.2.blockDepth ≤ options.maxDepth := by
  have fits := fits_of_parseText h
  constructor
  · intro entry member
    obtain ⟨named, value⟩ := fits entry member
    exact ⟨named, value.wellFormed⟩
  · intro entry member
    exact (fits entry member).2.depth

/-- Records of both kinds and a sequence in a block that stays open. -/
def recordsScript : String :=
  "repositories \x7b\n a()\n b ''\n\x7d\nd \x7b\ndependencies \x7b\n" ++
    "k 'g:n:1' \x7b\nexclude m: 'x' \x7d\n\x7d\nc [p]\nc 1"

def recordsDocument : Document :=
  [("repositories", .repositories [.unknown "a()", .unknown "b"]),
    ("d", .document
      [("dependencies", .dependencies [⟨"g", "n", "1", "k", [[("m", "x")]]⟩]),
        ("c", .sequence [.text "p", .text "1"])])]

theorem wellFormed_recordsDocument :
    parseText ⟨2, 256, none⟩ recordsScript = .ok recordsDocument ∧ recordsDocument.WellFormed ∧
      ∀ entry ∈ recordsDocument, entry.2.blockDepth ≤ 2 := by
  have run : parseText ⟨2, 256, none⟩ recordsScript = .ok recordsDocument := by
    with_unfolding_all rfl
  exact ⟨run, parseText_wellFormed run⟩

end BuildScript
