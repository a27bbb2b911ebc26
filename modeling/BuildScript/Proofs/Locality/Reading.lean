import BuildScript.Proofs.Locality.Scope
import BuildScript.Proofs.Moves

/-!
# Blocks end where they end

How a run of the reader stops at a brace, and that it stops there whatever follows.
-/

namespace BuildScript

/-! ## Runs that stop at a brace -/

/-- The run from a state stops at a brace of the text: at the `}` that ends its scope, or at a `{`
that exceeds the limit on nesting. -/
inductive Stops (nesting : Nesting) : State → List Char → Reading → Prop where
  | closed {st : State} {c : Char} {r rest : List Char} {doc : Document}
    (h : step nesting st c r = .closed doc rest) : Stops nesting st (c :: r) (.closed doc rest)
  | tooDeep {st : State} {c : Char} {r rest : List Char}
    (h : step nesting st c r = .tooDeep rest) : Stops nesting st (c :: r) (.tooDeep rest)
  | next {st next : State} {c : Char} {r rest : List Char} {last : Reading}
    (taken : step nesting st c r = .next next rest) (more : Stops nesting next rest last) :
    Stops nesting st (c :: r) last

/-- The text that is left when reading stops. -/
def Reading.rest : Reading → List Char
  | closed _ rest => rest
  | tooDeep rest => rest

/-- The brace at which reading stops. -/
def Reading.brace : Reading → Char
  | closed _ _ => '}'
  | tooDeep _ => '{'

/-- The same outcome before another text. -/
def Reading.before (rest : List Char) : Reading → Reading
  | closed doc _ => closed doc rest
  | tooDeep _ => tooDeep rest

variable {nesting : Nesting} {st : State} {last : Reading}

theorem step_closed {c : Char} {r rest : List Char} {doc : Document}
    (h : step nesting st c r = .closed doc rest) :
    c = '}' ∧ rest = r ∧ ∀ r', step nesting st c r' = .closed doc r' := by
  obtain ⟨rfl, rfl, outermost, inside, rfl⟩ := closeBlock_of_step_closed h
  refine ⟨rfl, rfl, fun r' => ?_⟩
  rcases step_cases nesting st '}' with ⟨-, same⟩ | ⟨key, opens⟩ | onward
  · rw [same, closeBlock, outermost]
    exact if_neg (Nat.pos_iff_ne_zero.mp inside)
  · cases eq_opening_of_opens? opens
  · obtain ⟨next, rest', taken, -⟩ := onward rest
    cases h.symm.trans taken

theorem step_tooDeep {c : Char} {r rest : List Char} (h : step nesting st c r = .tooDeep rest) :
    c = '{' ∧ rest = r ∧ ∀ r', step nesting st c r' = .tooDeep r' := by
  obtain ⟨same, ⟨key, opens⟩, full⟩ := openBlock_of_step_tooDeep h
  refine ⟨eq_opening_of_opens? opens, same, fun r' => ?_⟩
  exact (step_of_opens? opens nesting r').trans (if_pos full)

theorem read_of_stops {s : List Char} (h : Stops nesting st s last) :
    read nesting st s = last := by
  induction h with
  | closed h => exact read_of_closed h
  | tooDeep h => exact read_of_tooDeep h
  | next taken more ih => exact (read_of_next taken).trans ih

/-- Reading that does not stop at a brace goes on to the end of the text. -/
theorem stops_or_ends (nesting : Nesting) (st : State) (s : List Char) :
    Stops nesting st s (read nesting st s) ∨ ∃ doc, read nesting st s = .closed doc [] := by
  match s with
  | [] => exact .inr ⟨_, read_nil nesting st⟩
  | c :: r =>
    cases taken : step nesting st c r with
    | next next rest =>
      have := (suffix_of_step taken).length_le
      rw [read_of_next taken]
      rcases stops_or_ends nesting next rest with more | ends
      · exact .inl (.next taken more)
      · exact .inr ends
    | closed doc rest =>
      rw [read_of_closed taken]
      exact .inl (.closed taken)
    | tooDeep rest =>
      rw [read_of_tooDeep taken]
      exact .inl (.tooDeep taken)
termination_by s.length

theorem Stops.eq_append {s : List Char} (h : Stops nesting st s last) :
    ∃ p, s = p ++ last.brace :: last.rest := by
  induction h with
  | closed h =>
    obtain ⟨rfl, rfl, -⟩ := step_closed h
    exact ⟨[], rfl⟩
  | tooDeep h =>
    obtain ⟨rfl, rfl, -⟩ := step_tooDeep h
    exact ⟨[], rfl⟩
  | @next st next c t rest last taken more ih =>
    obtain ⟨p, rfl⟩ := ih
    obtain ⟨skipped, rfl⟩ := suffix_of_step taken
    exact ⟨c :: (skipped ++ p), by simp⟩

/-- What reading comes to is settled by the text through the brace at which it stops. -/
theorem Stops.agree {s : List Char} (h : Stops nesting st s last) {r' s' : List Char}
    (agree : Agree last.rest r' s s') : Stops nesting st s' (last.before r') := by
  induction h generalizing s' with
  | closed h =>
    obtain ⟨-, rfl, same⟩ := step_closed h
    cases agree with
    | mark => exact .closed (same r')
    | cons _ behind => exact absurd behind.length_lt (Nat.lt_irrefl _)
  | tooDeep h =>
    obtain ⟨-, rfl, same⟩ := step_tooDeep h
    cases agree with
    | mark => exact .tooDeep (same r')
    | cons _ behind => exact absurd behind.length_lt (Nat.lt_irrefl _)
  | @next st next c t rest last taken more ih =>
    obtain ⟨p, text⟩ := more.eq_append
    have longer : last.rest.length < rest.length := by
      rw [text, List.length_append, List.length_cons]
      omega
    obtain ⟨t', rfl, behind⟩ := agree.behind (suffix_of_step taken) longer
    have alike := step_agree nesting st c behind (by rwa [taken])
    rw [taken] at alike
    cases same : step nesting st c t' with
    | next next' rest' =>
      rw [same] at alike
      cases alike with
      | next _ onward => exact .next same (ih onward)
    | closed doc rest' => rw [same] at alike; cases alike
    | tooDeep rest' => rw [same] at alike; cases alike

/-! ## Blocks and scripts -/

theorem agree_of_append {c : Char} (h : c = '{' ∨ c = '}') (p r r' : List Char) :
    Agree r r' (p ++ c :: r) (p ++ c :: r') :=
  (Agree.mark (isMark_of_brace h r')).prepend p

theorem Reading.brace_eq (last : Reading) : last.brace = '{' ∨ last.brace = '}' := by
  cases last with
  | closed doc rest => exact .inr rfl
  | tooDeep rest => exact .inl rfl

/-- A scope that is read up to a brace is read up to it, with the same outcome, before every text. -/
theorem readScope_of_stops {kind : ScopeKind} {s : List Char}
    (h : Stops nesting (State.start kind) (margin s) last) :
    ∃ consumed, s = consumed ++ last.brace :: last.rest ∧
      ∀ rest, readScope nesting kind (consumed ++ last.brace :: rest) = last.before rest := by
  obtain ⟨p, text⟩ := h.eq_append
  obtain ⟨skipped, whole⟩ := margin_suffix s
  have same : s = (skipped ++ p) ++ last.brace :: last.rest := by
    rw [← whole, text, List.append_assoc]
  refine ⟨skipped ++ p, same, fun rest => ?_⟩
  have agree : Agree last.rest rest s (skipped ++ p ++ last.brace :: rest) :=
    same ▸ agree_of_append last.brace_eq (skipped ++ p) last.rest rest
  have longer : last.rest.length < (margin s).length := by
    rw [text, List.length_append, List.length_cons]
    omega
  exact read_of_stops (h.agree (margin_local agree longer))

theorem blockDependencies_of_ends {s rest : List Char} (ends : afterDependencies? s = some rest) :
    ∃ consumed, s = consumed ++ '}' :: rest ∧
      ∀ rest', blockDependencies (consumed ++ '}' :: rest') =
        ((blockDependencies s).1, rest') := by
  obtain ⟨p, text⟩ := eq_append_of_afterStatements? ends
  obtain ⟨skipped, whole⟩ := margin_suffix s
  have same : s = (skipped ++ p) ++ '}' :: rest := by
    rw [← whole, text, List.append_assoc]
  refine ⟨skipped ++ p, same, fun rest' => ?_⟩
  have agree : Agree rest rest' s (skipped ++ p ++ '}' :: rest') :=
    same ▸ agree_of_append (.inr rfl) (skipped ++ p) rest rest'
  obtain ⟨left, alike, behind⟩ := blockDependencies_agree ends agree (Nat.le_refl _)
  rcases behind with further | ⟨-, here⟩
  · exact absurd further.length_lt (Nat.lt_irrefl _)
  · rw [alike, here]

theorem dropByteOrderMark_append {s : List Char} (h : s ≠ []) (t : List Char) :
    dropByteOrderMark (s ++ t) = dropByteOrderMark s ++ t := by
  cases s with
  | nil => exact absurd rfl h
  | cons c s =>
    by_cases mark : c = '\uFEFF'
    · subst mark
      rfl
    · have plain : ∀ u, dropByteOrderMark (c :: u) = c :: u := by
        intro u
        unfold dropByteOrderMark
        split
        · next same => exact absurd (List.cons.inj same).1 mark
        · rfl
      rw [List.cons_append, plain, plain, List.cons_append]

/-- A script that is nested too deep fails in the same way whatever follows it. -/
theorem parseText_append {options : ParseOptions} {input : String} {limit : Nat}
    {position : Position} {filename : Option String}
    (fails : parseText options input = .error (.nestedTooDeep limit position filename))
    (more : String) (size : (input ++ more).utf8ByteSize ≤ options.maxInputBytes) :
    parseText options (input ++ more) = .error (.nestedTooDeep limit position filename) := by
  have fits : input.utf8ByteSize ≤ options.maxInputBytes := by
    refine Nat.le_of_not_lt fun large => ?_
    simp [parseText, large] at fails
  cases run : readScope ⟨options.maxDepth, 0⟩ .script (dropByteOrderMark input.toList) with
  | closed doc rest =>
    simp [parseText, Nat.not_lt.2 fits, run] at fails
  | tooDeep rest =>
    have stops : Stops ⟨options.maxDepth, 0⟩ (State.start .script)
        (margin (dropByteOrderMark input.toList)) (.tooDeep rest) := by
      rcases stops_or_ends ⟨options.maxDepth, 0⟩ (State.start .script)
        (margin (dropByteOrderMark input.toList)) with stops | ⟨doc, ends⟩
      · rwa [← readScope, run] at stops
      · cases ends.symm.trans run
    obtain ⟨p, text, everywhere⟩ := readScope_of_stops stops
    have started : input.toList ≠ [] := by
      intro empty
      rw [empty] at text
      simp [dropByteOrderMark] at text
    have whole : dropByteOrderMark (input ++ more).toList = p ++ '{' :: (rest ++ more.toList) := by
      rw [String.toList_append, dropByteOrderMark_append started, text, List.append_assoc]
      rfl
    rw [parseText_tooDeep fits text run] at fails
    rw [parseText_tooDeep size whole (whole ▸ everywhere _), fails]

/-- No result depends on text behind the brace that settles it.

* A block whose `}` ends it, read as a nested document, as repositories or as a block in them, gives
  the same document and leaves the text behind the same `}` whatever that text is.
* So does a block of dependencies with its declarations.
* A script that fails because it is nested too deep fails with the same error before every text
  that keeps it within the size budget. -/
theorem reading_is_local :
    (∀ (nesting : Nesting) (kind : ScopeKind) (s rest : List Char) (doc : Document),
      Stops nesting (State.start kind) (margin s) (.closed doc rest) →
        ∃ consumed, s = consumed ++ '}' :: rest ∧
          ∀ rest', readScope nesting kind (consumed ++ '}' :: rest') = .closed doc rest') ∧
      (∀ s rest : List Char, afterDependencies? s = some rest →
        ∃ consumed, s = consumed ++ '}' :: rest ∧
          ∀ rest', blockDependencies (consumed ++ '}' :: rest') =
            ((blockDependencies s).1, rest')) ∧
      ∀ (options : ParseOptions) (input : String) (limit : Nat) (position : Position)
        (filename : Option String),
        parseText options input = .error (.nestedTooDeep limit position filename) →
        ∀ more : String, (input ++ more).utf8ByteSize ≤ options.maxInputBytes →
          parseText options (input ++ more) =
            .error (.nestedTooDeep limit position filename) :=
  ⟨fun _ _ _ _ _ stops => readScope_of_stops stops,
    fun _ _ ends => blockDependencies_of_ends ends,
    fun _ _ _ _ _ fails more size => parseText_append fails more size⟩

theorem reading_is_local_for_samples :
    (∀ rest, readScope ⟨4, 1⟩ .script ("a 1\n// \x7d\n".toList ++ '}' :: rest) =
      .closed [("a", .text "1")] rest) ∧
      (∀ rest, blockDependencies ("api 'g:n:1' ".toList ++ '}' :: rest) =
        ([⟨"g", "n", "1", "api", []⟩], rest)) ∧
      ∀ more : String, ("a \x7b b \x7b" ++ more).utf8ByteSize ≤ 64 →
        parseText ⟨1, 64, none⟩ ("a \x7b b \x7b" ++ more) =
          .error (.nestedTooDeep 1 ⟨1, 8⟩ none) := by
  have samePlace : ∀ {p q rest : List Char} {c : Char}, p ++ c :: rest = q ++ c :: rest → p = q :=
    fun same => List.append_cancel_right same
  refine ⟨?_, ?_, ?_⟩
  · have run : read ⟨4, 1⟩ (State.start .script)
        (margin ("a 1\n// \x7d\n".toList ++ '}' :: ['e'])) =
        .closed [("a", .text "1")] ['e'] := by with_unfolding_all rfl
    rcases stops_or_ends ⟨4, 1⟩ (State.start .script)
      (margin ("a 1\n// \x7d\n".toList ++ '}' :: ['e'])) with stops | ⟨doc, ends⟩
    · rw [run] at stops
      obtain ⟨consumed, same, all⟩ := reading_is_local.1 _ _ _ _ _ stops
      exact samePlace same ▸ all
    · cases run.symm.trans ends
  · have ends : afterDependencies? ("api 'g:n:1' ".toList ++ '}' :: ['e']) = some ['e'] := by
      with_unfolding_all rfl
    have known : (blockDependencies ("api 'g:n:1' ".toList ++ '}' :: ['e'])).1 =
        [⟨"g", "n", "1", "api", []⟩] := by with_unfolding_all rfl
    obtain ⟨consumed, same, all⟩ := reading_is_local.2.1 _ _ ends
    rw [known] at all
    exact samePlace same ▸ all
  · have fails : parseText ⟨1, 64, none⟩ "a \x7b b \x7b" = .error (.nestedTooDeep 1 ⟨1, 8⟩ none) := by
      with_unfolding_all rfl
    exact reading_is_local.2.2 _ _ _ _ _ fails

end BuildScript