import BuildScript.Proofs.Blocks
import BuildScript.Proofs.Comments.Behind
import Mathlib.Data.List.TakeWhile

/-!
# The contract of a scope

Whatever the text, a scope is read in a bounded number of rounds, each of which leads strictly
further on.  It comes to its end unless it has more `{` than blocks may be opened.  When it is over,
as many blocks are open as before it, no comment is open, and the text has been read to its end or
up to the `}` of the scope.
-/

namespace BuildScript

variable {nesting : Nesting} {st next last : State} {n : Nat} {a s r rest left : List Char} {c : Char}
  {doc : Document}

/-! ## Rounds -/

/-- Rounds of the reader, counted: steps, and at the end of the text the ends of the blocks that
are open. -/
inductive Rounds (nesting : Nesting) : Nat → State → List Char → State → List Char → Prop where
  | none {st : State} {s : List Char} : Rounds nesting 0 st s st s
  | step {n : Nat} {st next last : State} {c : Char} {r rest left : List Char}
      (taken : step nesting st c r = .next next rest) (more : Rounds nesting n next rest last left) :
      Rounds nesting (n + 1) st (c :: r) last left
  | leave {n : Nat} {st last : State} {frame : Frame} {outer : List Frame} {left : List Char}
      (innermost : st.outer = frame :: outer)
      (more : Rounds nesting n (st.leave frame outer) [] last left) :
      Rounds nesting (n + 1) st [] last left

/-- A step opens at most one block. -/
theorem outer_length_le_of_step (taken : step nesting st c r = .next next rest) :
    next.outer.length ≤ st.outer.length + 1 := by
  have opened := outer_length_of_step taken
  split at opened <;> omega

/-- A round takes a character, which opens at most one block, or ends a block. -/
theorem Rounds.bounded (h : Rounds nesting n st s last left) :
    n + 2 * left.length + last.outer.length ≤ 2 * s.length + st.outer.length := by
  induction h with
  | none => omega
  | step taken more ih =>
    have shorter := (suffix_of_step taken).length_le
    have opened := outer_length_le_of_step taken
    rw [List.length_cons]
    omega
  | leave innermost more ih =>
    have fewer := congrArg List.length innermost
    simp only [State.leave, List.length_cons] at ih fewer
    omega

theorem Rounds.suffix (h : Rounds nesting n st s last left) : left <:+ s := by
  induction h with
  | none => exact List.suffix_refl _
  | step taken more ih => exact ih.trans ((suffix_of_step taken).trans (List.suffix_cons _ _))
  | leave innermost more ih => exact ih

/-! ## Returns -/

/-- At the end of the text every open block ends. -/
theorem rounds_unwind (nesting : Nesting) (st : State) :
    ∃ n last, Rounds nesting n st [] last [] ∧ last.outer = [] ∧
      last.finished = unwind st.finished st.kind st.outer := by
  obtain ⟨kind, doc, line, outer⟩ := st
  induction outer generalizing kind doc line with
  | nil => exact ⟨0, _, .none, rfl, rfl⟩
  | cons frame outer ih =>
    obtain ⟨n, last, more, outermost, same⟩ := ih frame.kind
      (frame.kind.storeBlock frame.key (kind.value (line.store kind doc)) frame.doc) .done
    exact ⟨n + 1, last, .leave rfl more, outermost, same⟩

/-- Where a scope ends: at the end of the text or at the `}` of its block. -/
inductive Ending (nesting : Nesting) (rest : List Char) : List Char → Prop where
  | text (none : rest = []) : Ending nesting rest []
  | brace (inside : 0 < nesting.depth) : Ending nesting rest ('}' :: rest)

/-- Reading that comes to the end of its scope comes there in rounds that leave no block open. -/
theorem rounds_of_read (nesting : Nesting) (st : State) (s : List Char)
    (h : read nesting st s = .closed doc rest) :
    ∃ n last left, Rounds nesting n st s last left ∧ last.outer = [] ∧ last.finished = doc ∧
      Ending nesting rest left := by
  match s with
  | [] =>
    rw [read_nil] at h
    cases h
    obtain ⟨n, last, rounds, outermost, same⟩ := rounds_unwind nesting st
    exact ⟨n, last, [], rounds, outermost, same, .text rfl⟩
  | c :: r =>
    cases taken : step nesting st c r with
    | next next rest' =>
      have := (suffix_of_step taken).length_le
      rw [read_of_next taken] at h
      obtain ⟨n, last, left, rounds, outermost, same, ending⟩ := rounds_of_read nesting next rest' h
      exact ⟨n + 1, last, left, .step taken rounds, outermost, same, ending⟩
    | closed doc' rest' =>
      rw [read_of_closed taken] at h
      cases h
      obtain ⟨rfl, rfl, outermost, inside, same⟩ := closeBlock_of_step_closed taken
      exact ⟨0, st, '}' :: rest, .none, outermost, same, .brace inside⟩
    | tooDeep rest' =>
      rw [read_of_tooDeep taken] at h
      cases h
termination_by s.length

/-! ## Comments -/

/-- The comment that a text begins with is closed before the text `rest`. -/
inductive IsOver (rest : List Char) : List Char → Prop where
  | line {inside behind : List Char} {c : Char} (plain : ∀ d ∈ inside, isLineBreak d = false)
      (lineBreak : isLineBreak c = true) (later : rest <:+ c :: behind) :
      IsOver rest ('/' :: '/' :: (inside ++ c :: behind))
  | block {inside behind : List Char} (later : rest <:+ behind) :
      IsOver rest ('/' :: '*' :: (inside ++ '*' :: '/' :: behind))

/-- Text behind a block comment begins after its close. -/
theorem exists_close_of_blockComment (h : blockComment r ≠ []) :
    ∃ inside behind, r = inside ++ '*' :: '/' :: behind ∧ blockComment r <:+ behind := by
  induction r with
  | nil => exact absurd blockComment.eq_3 h
  | cons c r ih =>
    by_cases close : ∃ behind, c :: r = '*' :: '/' :: behind
    · obtain ⟨behind, close⟩ := close
      rw [close, blockComment.eq_1]
      exact ⟨[], behind, rfl, margin_suffix behind⟩
    · have onward : blockComment (c :: r) = blockComment r :=
        blockComment.eq_2 c r fun behind star slash => close ⟨behind, by rw [star, slash]⟩
      rw [onward] at h ⊢
      obtain ⟨inside, behind, rfl, later⟩ := ih h
      exact ⟨c :: inside, behind, rfl, later⟩

/-- A comment that the margin leaves text behind is closed before it. -/
theorem BeginsComment.isOver (comment : BeginsComment a) (more : rest ≠ [])
    (behind : rest <:+ margin a) : IsOver rest a := by
  have left : margin a ≠ [] := fun none => more (List.suffix_nil.mp (none ▸ behind))
  cases comment with
  | line r =>
    rw [margin.eq_1] at left behind
    obtain ⟨c, later, ends⟩ := List.exists_cons_of_ne_nil left
    have plain : ∀ d ∈ r.takeWhile (fun c => !isLineBreak c), isLineBreak d = false := by
      intro d member
      simpa using List.mem_takeWhile_imp member
    have lineBreak : isLineBreak c = true := by
      have first := List.head?_dropWhile_not (fun c => !isLineBreak c) r
      rw [skipLine] at ends
      simpa [ends] using first
    rw [← List.takeWhile_append_dropWhile (p := fun c => !isLineBreak c) (l := r),
      ← skipLine, ends]
    exact .line plain lineBreak (ends ▸ behind)
  | block r =>
    rw [margin.eq_2] at left behind
    obtain ⟨inside, later, rfl, suffix⟩ := exists_close_of_blockComment left
    exact .block (behind.trans suffix)

/-- A scan that goes on behind a comment leaves text behind its margin. -/
theorem Resumes.suffix_margin {α : Type} {below : α → List Char} {f : List Char → α}
    (comment : BeginsComment a ∧ a <:+ s) (h : Resumes below f a s) : below (f s) <:+ margin a := by
  obtain ⟨resume, ends, same⟩ := h
  obtain ⟨before, rfl⟩ := comment.2
  have here : f (before ++ a) = resume (margin a) :=
    same (.inr comment.1) (Upto.here.prepend before)
  rw [here]
  exact ends (margin a)

/-- A step goes on behind the comments that it opens. -/
theorem step_behind_comment (opened : a ∈ stepComments nesting st c r) :
    (step nesting st c r).rest <:+ margin a := by
  cases call : callToken? st c with
  | none => exact (resumes_step opened call).suffix_margin (begins_stepComments opened)
  | some token =>
    -- What is read of a call that becomes a key depends on the comments in it, but not its end.
    obtain ⟨rfl, same, comments⟩ := step_of_callToken? nesting call
    rw [comments] at opened
    have skipped := (hides_skipCall.resumes opened).suffix_margin (hides_skipCall.begins opened)
    rw [same]
    simp only [callStep]
    split
    · next block opens => exact (opens ▸ skipIndent_suffix _).trans skipped
    · exact skipped

/-- Reading goes on behind the comments that it opens. -/
theorem read_behind_comment (opened : a ∈ readComments nesting st s) :
    (read nesting st s).rest <:+ margin a := by
  fun_induction readComments nesting st s with
  | case1 => cases opened
  | case2 st c r next rest taken _ ih =>
    rw [read_of_next taken]
    rcases List.mem_append.1 opened with here | later
    · have behind := step_behind_comment here
      rw [taken] at behind
      exact (rest_suffix_of_read nesting next rest).trans behind
    · exact ih later
  | case3 => cases opened
  | case4 => cases opened

/-- The comments that are opened while a scope is read. -/
def scopeComments (nesting : Nesting) (kind : ScopeKind) (s : List Char) : List (List Char) :=
  marginComments s ++ readComments nesting (State.start kind) (margin s)

theorem begins_scopeComments {kind : ScopeKind} (opened : a ∈ scopeComments nesting kind s) :
    BeginsComment a := by
  rcases List.mem_append.1 opened with first | later
  · exact (beginsComment_of_mem_marginComments.1 s a first).1
  · exact (begins_readComments later).1

theorem readScope_behind_comment {kind : ScopeKind} (opened : a ∈ scopeComments nesting kind s) :
    (readScope nesting kind s).rest <:+ margin a := by
  rcases List.mem_append.1 opened with first | later
  · have comment := beginsComment_of_mem_marginComments.1 s a first
    exact (rest_suffix_of_read ..).trans ((hides_margin.resumes first).suffix_margin comment)
  · exact read_behind_comment later

/-! ## The contract -/

/-- How a scope that is read to its end is left. -/
structure IsLeft (nesting : Nesting) (kind : ScopeKind) (s : List Char) (doc : Document)
    (rest : List Char) : Prop where
  behind : rest <:+ s
  ending : rest = [] ∨ 0 < nesting.depth ∧ ∃ before, s = before ++ '}' :: rest
  depth : ∃ n last left, Rounds nesting n (State.start kind) (margin s) last left ∧
    Ending nesting rest left ∧ last.depth nesting = nesting.depth ∧ last.finished = doc
  comments : rest = [] ∨ ∀ a ∈ scopeComments nesting kind s, IsOver rest a

/-- The loops that the reader passes text over with: the margin of a line, everything that is
skipped as a whole, lists and blocks of dependencies. -/
inductive IsScanner : (List Char → List Char) → Prop where
  | margin : IsScanner margin
  | blockComment : IsScanner blockComment
  | skipBalanced (opening closing : Char) (depth : Nat) (quote : Option Char) :
      IsScanner (skipBalanced opening closing depth quote)
  | skipStatement (depth : Nat) (quote : Option Char) : IsScanner (skipStatement depth quote)
  | skipCall : IsScanner skipCall
  | skipBlankLines : IsScanner skipBlankLines
  | skipBody : IsScanner skipBody
  | skipConditional : IsScanner skipConditional
  | skipAlternative : IsScanner skipAlternative
  | skipMethod : IsScanner skipMethod
  | definition : IsScanner fun s => (definition s).2
  | listItems : IsScanner fun s => (listItems s).2
  | statements (depth : Nat) (quote : Option Char) (current : String) :
      IsScanner fun s => (statements depth quote current s).2
  | blockDependencies : IsScanner fun s => (blockDependencies s).2

theorem IsScanner.suffix {scan : List Char → List Char} (h : IsScanner scan) (s : List Char) :
    scan s <:+ s := by
  cases h with
  | margin => exact margin_suffix s
  | blockComment => exact margin_suffix_and_blockComment_suffix.2 s
  | skipBalanced => exact skipBalanced_suffix ..
  | skipStatement => exact skipStatement_suffix ..
  | skipCall => exact skipCall_suffix s
  | skipBlankLines => exact skipBlankLines_suffix s
  | skipBody => exact skipBody_suffix s
  | skipConditional => exact skipConditional_suffix s
  | skipAlternative => exact skipAlternative_suffix s
  | skipMethod => exact skipMethod_suffix s
  | definition => exact definition_suffix s
  | listItems => exact listItems_suffix s
  | statements => exact statements_suffix ..
  | blockDependencies => exact blockDependencies_suffix s

/-- What holds of reading a scope, whatever the text. -/
structure IsScopeContract (nesting : Nesting) (kind : ScopeKind) (s : List Char) : Prop where
  bounded : ∀ n last left, Rounds nesting n (State.start kind) (margin s) last left →
    n ≤ 2 * s.length
  advances : ∀ st c r next rest, step nesting st c r = .next next rest → rest <:+ r
  scanners : ∀ scan, IsScanner scan → ∀ t, scan t <:+ t
  closes : nesting.depth + s.count '{' ≤ nesting.limit →
    ∃ doc rest, readScope nesting kind s = .closed doc rest
  blocks : ∀ (st : State) (key : String) (r : List Char), read nesting (st.enter key) (margin r) =
    (readScope ⟨nesting.limit, st.depth nesting + 1⟩ (st.kind.ofBlock key) r).inside nesting
      ⟨key, st.kind, st.doc⟩ st.outer (st.kind.ofBlock key)
  left : ∀ doc rest, readScope nesting kind s = .closed doc rest → IsLeft nesting kind s doc rest
  outermost : nesting.depth = 0 → ∀ doc rest, readScope nesting kind s = .closed doc rest →
    rest = []

theorem read_enter (nesting : Nesting) (st : State) (key : String) (r : List Char) :
    read nesting (st.enter key) (margin r) =
      (readScope ⟨nesting.limit, st.depth nesting + 1⟩ (st.kind.ofBlock key) r).inside nesting
        ⟨key, st.kind, st.doc⟩ st.outer (st.kind.ofBlock key) :=
  read_inside nesting.limit nesting.depth ⟨key, st.kind, st.doc⟩ st.outer
    (State.start (st.kind.ofBlock key)) (margin r)

theorem isLeft_of_readScope {kind : ScopeKind} (h : readScope nesting kind s = .closed doc rest) :
    IsLeft nesting kind s doc rest := by
  obtain ⟨n, last, left, rounds, outermost, same, ending⟩ := rounds_of_read _ _ _ h
  obtain ⟨skipped, whole⟩ := margin_suffix s
  obtain ⟨taken, text⟩ := rounds.suffix
  refine ⟨?_, ?_, ⟨n, last, left, rounds, ending, ?_, same⟩, ?_⟩
  · have suffix := rest_suffix_of_read nesting (State.start kind) (margin s)
    rw [← readScope, h] at suffix
    exact suffix.trans (margin_suffix s)
  · cases ending with
    | text none => exact .inl none
    | brace inside => exact .inr ⟨inside, skipped ++ taken, by rw [← whole, ← text]; simp⟩
  · rw [State.depth, outermost]
    rfl
  · by_cases none : rest = []
    · exact .inl none
    · right
      intro a opened
      have behind := readScope_behind_comment opened
      rw [h] at behind
      exact (begins_scopeComments opened).isOver none behind

/-- Every scope is read under one contract: in at most twice as many rounds as the text has
characters, each leading on, to the end of the text or to the `}` of the scope, with the depth of
blocks as it was and no comment open; only a limit on nesting that its `{` can exceed keeps it from
its end; and each block in it is read under the same contract, one block deeper. -/
theorem readScope_contract (nesting : Nesting) (kind : ScopeKind) (s : List Char) :
    IsScopeContract nesting kind s where
  bounded n last left rounds := by
    have within := rounds.bounded
    have shorter := (margin_suffix s).length_le
    simp only [State.start, List.length_nil] at within
    omega
  advances _ _ _ _ _ taken := suffix_of_step taken
  scanners _ scanner t := scanner.suffix t
  closes := readScope_closes nesting kind s
  blocks := read_enter nesting
  left _ _ h := isLeft_of_readScope h
  outermost outside doc rest h := by
    rcases (isLeft_of_readScope h).ending with none | ⟨inside, -⟩
    · exact none
    · exact absurd outside (Nat.pos_iff_ne_zero.mp inside)

end BuildScript
