import BuildScript.Proofs.Moves

/-!
# The limit on nesting

Every text has a depth of its own.  A limit below it is exceeded at the first `{` that opens a block
inside as many blocks as the limit allows, and no other limit makes a difference to what is read.
-/

namespace BuildScript

/-! ## Steps and limits -/

/-- The limit matters only where a block opens. -/
theorem step_limit {st : State} {c : Char} (h : st.opens? c = none) (limit limit' depth : Nat)
    (r : List Char) : step ⟨limit, depth⟩ st c r = step ⟨limit', depth⟩ st c r := by
  have fits := role_fits st c
  rw [step_eq_role, step_eq_role]
  generalize st.role c = role at fits ⊢
  cases role with
  | opening key =>
    rw [State.opens?, if_pos fits.1, fits.2] at h
    cases h
  | _ => rfl

/-- Outside every block, a step that opens none leads on. -/
theorem step_eq_next {st : State} {c : Char} (h : st.opens? c = none) (limit : Nat)
    (r : List Char) : ∃ next rest, step ⟨limit, 0⟩ st c r = .next next rest := by
  rcases step_cases ⟨limit, 0⟩ st c with ⟨-, closes⟩ | ⟨key, opens⟩ | onward
  · rw [closes]
    unfold closeBlock
    split
    · exact ⟨_, _, rfl⟩
    · exact ⟨_, _, if_pos rfl⟩
  · cases h.symm.trans opens
  · obtain ⟨next, rest, taken, -⟩ := onward r
    exact ⟨next, rest, taken⟩

/-- Below the limit a block opens. -/
theorem openBlock_eq_next {limit : Nat} {st : State} (room : st.outer.length < limit)
    (key : String) (r : List Char) :
    ∃ next rest, openBlock ⟨limit, 0⟩ st key r = .next next rest := by
  have within : ¬ limit ≤ 0 + st.outer.length := by omega
  rw [openBlock, if_neg within]
  split <;> exact ⟨_, _, rfl⟩

theorem openBlock_limit {limit limit' : Nat} {st : State} (room : st.outer.length < limit)
    (room' : st.outer.length < limit') (key : String) (r : List Char) :
    openBlock ⟨limit, 0⟩ st key r = openBlock ⟨limit', 0⟩ st key r := by
  have within : ¬ limit ≤ 0 + st.outer.length := by omega
  have within' : ¬ limit' ≤ 0 + st.outer.length := by omega
  rw [openBlock, openBlock, if_neg within, if_neg within']

theorem openBlock_tooDeep {limit : Nat} {st : State} (full : limit ≤ st.outer.length)
    (key : String) (r : List Char) : openBlock ⟨limit, 0⟩ st key r = .tooDeep r := by
  have exceeded : limit ≤ 0 + st.outer.length := by omega
  rw [openBlock, if_pos exceeded]

/-! ## Reading without a limit -/

/-- A limit that the next step cannot exceed. -/
def State.unlimited (st : State) : Nesting := ⟨st.outer.length + 1, 0⟩

/-- The blocks that reading without a limit opens, in order: how many blocks are open around each,
and the text behind its `{`. -/
def openings (st : State) : List Char → List (Nat × List Char)
  | [] => []
  | c :: r =>
    match h : step st.unlimited st c r with
    | .next next rest =>
      have := (suffix_of_step h).length_le
      if (st.opens? c).isSome then (st.outer.length, r) :: openings next rest
      else openings next rest
    | _ => []
  termination_by s => s.length
  decreasing_by all_goals exact Nat.lt_succ_of_le this

theorem openings_nil (st : State) : openings st [] = [] := by rw [openings]

theorem openings_cons {st next : State} {c : Char} {r rest : List Char}
    (h : step st.unlimited st c r = .next next rest) :
    openings st (c :: r) =
      if (st.opens? c).isSome then (st.outer.length, r) :: openings next rest
      else openings next rest := by
  rw [openings]
  split <;> simp_all

/-- Without a limit every character leads on; only one that opens a block adds a block around what
is read next. -/
theorem unlimited_step (st : State) (c : Char) (r : List Char) :
    ∃ next rest, step st.unlimited st c r = .next next rest ∧
      next.outer.length ≤ st.outer.length + if (st.opens? c).isSome then 1 else 0 := by
  obtain ⟨next, rest, taken⟩ : ∃ next rest, step st.unlimited st c r = .next next rest := by
    cases opens : st.opens? c with
    | none => exact step_eq_next opens _ r
    | some key =>
      rw [step_of_opens? opens]
      exact openBlock_eq_next (Nat.lt_succ_self _) key r
  exact ⟨next, rest, taken, outer_length_of_step taken⟩

/-- What reading comes to under a limit, from the blocks that open without one and the document that
is read then. -/
def outcome (limit : Nat) (opened : List (Nat × List Char)) (doc : Document) : Reading :=
  match opened.find? fun block => limit ≤ block.1 with
  | some block => .tooDeep block.2
  | none => .closed doc []

/-- A limit stops reading at the first block that exceeds it and changes nothing before. -/
theorem read_eq_outcome (st : State) (s : List Char) :
    ∃ doc, ∀ limit, read ⟨limit, 0⟩ st s = outcome limit (openings st s) doc := by
  match s with
  | [] => exact ⟨_, fun limit => by rw [read_nil, openings_nil]; rfl⟩
  | c :: r =>
    obtain ⟨next, rest, taken, -⟩ := unlimited_step st c r
    have := (suffix_of_step taken).length_le
    obtain ⟨doc, later⟩ := read_eq_outcome next rest
    refine ⟨doc, fun limit => ?_⟩
    rw [openings_cons taken]
    cases opens : st.opens? c with
    | none =>
      rw [State.unlimited, step_limit opens _ limit] at taken
      rw [read_of_next taken, later]
      rfl
    | some key =>
      rw [State.unlimited, step_of_opens? opens] at taken
      by_cases full : limit ≤ st.outer.length
      · have stops : step ⟨limit, 0⟩ st c r = .tooDeep r :=
          (step_of_opens? opens _ r).trans (openBlock_tooDeep full key r)
        rw [read_of_tooDeep stops]
        simp [outcome, full]
      · have goesOn : step ⟨limit, 0⟩ st c r = .next next rest := by
          rw [step_of_opens? opens, ← taken]
          exact openBlock_limit (by omega) (Nat.lt_succ_self _) key r
        rw [read_of_next goesOn, later]
        simp [outcome, full]
termination_by s.length

/-- Blocks open one inside the other, so the first one inside more blocks than a limit allows is
inside exactly as many as it allows. -/
theorem find?_openings (st : State) (s : List Char) {limit : Nat} (h : st.outer.length ≤ limit) :
    (openings st s).find? (fun block => limit ≤ block.1) =
      (openings st s).find? fun block => block.1 == limit := by
  match s with
  | [] => rw [openings_nil]; rfl
  | c :: r =>
    obtain ⟨next, rest, taken, less⟩ := unlimited_step st c r
    have := (suffix_of_step taken).length_le
    rw [openings_cons taken]
    split
    · next opens =>
      rw [if_pos opens] at less
      by_cases full : limit ≤ st.outer.length
      · have same : st.outer.length = limit := by omega
        simp [same]
      · have other : st.outer.length ≠ limit := by omega
        simp only [List.find?_cons, full, decide_false, beq_eq_false_iff_ne.2 other]
        exact find?_openings next rest (by omega)
    · next closed =>
      rw [if_neg closed] at less
      exact find?_openings next rest (by omega)
termination_by s.length

/-- Every block opens at a `{` of the text, inside no more blocks than have opened before. -/
theorem of_mem_openings (st : State) (s : List Char) {block : Nat × List Char}
    (h : block ∈ openings st s) :
    (∃ before, s = before ++ '{' :: block.2) ∧ block.1 < st.outer.length + s.count '{' := by
  match s with
  | [] =>
    rw [openings_nil] at h
    cases h
  | c :: r =>
    obtain ⟨next, rest, taken, less⟩ := unlimited_step st c r
    have suffix := suffix_of_step taken
    have := suffix.length_le
    have fewer := suffix.sublist.count_le '{'
    have later : block ∈ openings next rest →
        (∃ before, c :: r = before ++ '{' :: block.2) ∧
          block.1 < next.outer.length + r.count '{' := by
      intro h
      obtain ⟨⟨before, same⟩, inside⟩ := of_mem_openings next rest h
      obtain ⟨skipped, rfl⟩ := suffix
      exact ⟨⟨c :: (skipped ++ before), by simp [same]⟩, by omega⟩
    rw [openings_cons taken] at h
    split at h
    · next opens =>
      obtain ⟨key, found⟩ := Option.isSome_iff_exists.1 opens
      obtain rfl := eq_opening_of_opens? found
      rw [if_pos opens] at less
      rcases List.mem_cons.1 h with rfl | h
      · exact ⟨⟨[], rfl⟩, by simp⟩
      · obtain ⟨before, inside⟩ := later h
        exact ⟨before, by simp; omega⟩
    · next closed =>
      rw [if_neg closed] at less
      obtain ⟨before, inside⟩ := later h
      refine ⟨before, Nat.lt_of_lt_of_le inside ?_⟩
      have := List.count_le_count_cons (a := '{') (b := c) (l := r)
      omega
termination_by s.length

/-- The number of blocks that are open at once. -/
def depthOf (opened : List (Nat × List Char)) : Nat :=
  opened.foldr (fun block depth => max (block.1 + 1) depth) 0

theorem depthOf_le_iff {opened : List (Nat × List Char)} {limit : Nat} :
    depthOf opened ≤ limit ↔ ∀ block ∈ opened, block.1 < limit := by
  induction opened with
  | nil => simp [depthOf]
  | cons block opened ih =>
    have split : depthOf (block :: opened) = max (block.1 + 1) (depthOf opened) := rfl
    rw [split, Nat.max_le, ih, List.forall_mem_cons, Nat.succ_le_iff]

/-! ## Limits on a script -/

theorem dropByteOrderMark_suffix (s : List Char) : dropByteOrderMark s <:+ s := by
  unfold dropByteOrderMark
  split
  · exact List.suffix_cons _ _
  · exact List.suffix_refl _

theorem outcome_of_depthOf_le {limit : Nat} {opened : List (Nat × List Char)}
    (h : depthOf opened ≤ limit) (doc : Document) : outcome limit opened doc = .closed doc [] := by
  have none : opened.find? (fun block => limit ≤ block.1) = none := by
    rw [List.find?_eq_none]
    intro block member
    simpa using depthOf_le_iff.1 h block member
  rw [outcome, none]

/-- Below its depth a text is not read past the `{` of the first block inside as many blocks as the
limit allows. -/
theorem outcome_of_lt_depthOf {limit : Nat} {s : List Char}
    (h : limit < depthOf (openings (State.start .script) s)) :
    ∃ before rest, s = before ++ '{' :: rest ∧
      (openings (State.start .script) s).find? (fun block => block.1 == limit) =
        some (limit, rest) ∧
      ∀ doc, outcome limit (openings (State.start .script) s) doc = .tooDeep rest := by
  have same := find?_openings (State.start .script) s (Nat.zero_le limit)
  cases found : (openings (State.start .script) s).find? (fun block => limit ≤ block.1) with
  | none =>
    rw [List.find?_eq_none] at found
    have within : depthOf (openings (State.start .script) s) ≤ limit :=
      depthOf_le_iff.2 fun block member => by simpa using found block member
    omega
  | some block =>
    obtain ⟨depth, rest⟩ := block
    have exact : depth = limit := by
      rw [found] at same
      simpa using List.find?_some same.symm
    subst exact
    obtain ⟨⟨before, text⟩, -⟩ := of_mem_openings _ _ (List.mem_of_find?_eq_some found)
    refine ⟨before, rest, text, same ▸ found, fun doc => ?_⟩
    rw [outcome, found]

/-- The limit on nesting is sharp.  Every input has a depth, no larger than the number of its `{`,
such that every limit of at least that depth gives one and the same document, and every limit below
it fails just behind the first `{` that reading without a limit enters as a block while as many
blocks as the limit are open.  Nothing else makes an input within the size budget fail. -/
theorem parseText_nesting_limit (input : String) :
    ∃ depth doc, depth ≤ input.toList.count '{' ∧
      ∀ options : ParseOptions, input.utf8ByteSize ≤ options.maxInputBytes →
        (depth ≤ options.maxDepth → parseText options input = .ok doc) ∧
        (options.maxDepth < depth →
          ∃ before rest,
            dropByteOrderMark input.toList = before ++ '{' :: rest ∧
            (openings (State.start .script) (margin (dropByteOrderMark input.toList))).find?
              (fun block => block.1 == options.maxDepth) = some (options.maxDepth, rest) ∧
            parseText options input =
              .error (.nestedTooDeep options.maxDepth
                ⟨1 + (before ++ ['{']).count '\n',
                  1 + ((before ++ ['{']).reverse.takeWhile (· != '\n')).length⟩
                options.filename)) := by
  obtain ⟨doc, run⟩ :=
    read_eq_outcome (State.start .script) (margin (dropByteOrderMark input.toList))
  refine ⟨depthOf (openings (State.start .script) (margin (dropByteOrderMark input.toList))), doc,
    ?_, fun options size => ⟨fun room => ?_, fun exceeded => ?_⟩⟩
  · have fewer : (margin (dropByteOrderMark input.toList)).count '{' ≤ input.toList.count '{' :=
      ((margin_suffix _).trans (dropByteOrderMark_suffix _)).sublist.count_le '{'
    refine depthOf_le_iff.2 fun block member => Nat.lt_of_lt_of_le ?_ fewer
    simpa [State.start] using (of_mem_openings _ _ member).2
  · exact parseText_of_closed size ((run options.maxDepth).trans (outcome_of_depthOf_le room doc))
  · obtain ⟨inner, rest, text, first, stops⟩ := outcome_of_lt_depthOf exceeded
    obtain ⟨skipped, whole⟩ := margin_suffix (dropByteOrderMark input.toList)
    have place : dropByteOrderMark input.toList = (skipped ++ inner) ++ '{' :: rest := by
      rw [← whole, text, List.append_assoc]
    exact ⟨skipped ++ inner, rest, place, first,
      parseText_tooDeep size place ((run options.maxDepth).trans (stops doc))⟩

theorem nesting_limit_of_two_blocks :
    (∀ limit, 2 ≤ limit →
      parseText ⟨limit, 64, none⟩ "\nb \x7b c \x7b d 1 \x7d" =
        .ok [("b", .document [("c", .document [("d", .text "1")])])]) ∧
      ∃ before rest, "\nb \x7b c \x7b d 1 \x7d".toList = before ++ '{' :: rest ∧
        Position.after (before ++ ['{']) = ⟨2, 8⟩ ∧
        parseText ⟨1, 64, none⟩ "\nb \x7b c \x7b d 1 \x7d" =
          .error (.nestedTooDeep 1 (Position.after (before ++ ['{'])) none) := by
  obtain ⟨depth, doc, few, all⟩ := parseText_nesting_limit "\nb \x7b c \x7b d 1 \x7d"
  have most : depth ≤ 2 := few
  have known : doc = [("b", .document [("c", .document [("d", .text "1")])])] := by
    refine Except.ok.inj (((all ⟨2, 64, none⟩ (by decide)).1 most).symm.trans ?_)
    with_unfolding_all rfl
  have stops : parseText ⟨1, 64, none⟩ "\nb \x7b c \x7b d 1 \x7d" =
      .error (.nestedTooDeep 1 ⟨2, 8⟩ none) := by with_unfolding_all rfl
  have exceeded : 1 < depth := by
    refine Nat.lt_of_not_le fun within => ?_
    have accepted := (all ⟨1, 64, none⟩ (by decide)).1 within
    rw [stops] at accepted
    cases accepted
  obtain ⟨before, rest, text, -, fails⟩ := (all ⟨1, 64, none⟩ (by decide)).2 exceeded
  refine ⟨fun limit more => ?_, before, rest, text, ?_, fails⟩
  · have size : "\nb \x7b c \x7b d 1 \x7d".utf8ByteSize ≤ 64 := by decide
    rw [(all ⟨limit, 64, none⟩ size).1 (Nat.le_trans most more), known]
  · rw [stops] at fails
    exact (ParseError.nestedTooDeep.inj (Except.error.inj fails)).2.1.symm

end BuildScript
