import BuildScript.Proofs.Comments.Opened
import BuildScript.Proofs.Locality.Reading
import Mathlib.Data.List.Infix

/-!
# Reading behind a comment

A run of the reader opens comments in the margins of every scope, in blocks of dependencies and in
what it skips.  It goes on behind each in the same way whatever the comment says.  A call in
parentheses that becomes the key of a block is the exception: the key is the text of the call as it
is written, with the comments in it.
-/

namespace BuildScript

open Text

variable {nesting : Nesting} {st : State} {a b s s' r r' : List Char} {c : Char}

/-! ## Dependencies -/

/-- The comments between the lines of a block of dependencies. -/
def statementComments (depth : Nat) (quote : Option Char) : List Char → List (List Char)
  | [] => []
  | c :: r =>
    if isLineBreak c then
      have := (margin_suffix r).length_le
      marginComments r ++ statementComments depth none (margin r)
    else if inLiteral quote c then statementComments depth (quoteAfter quote c) r
    else if c == '(' || c == '[' || c == '{' then statementComments (depth + 1) none r
    else if c == '}' && depth == 0 then []
    else if c == ')' || c == ']' || c == '}' then statementComments (depth - 1) none r
    else statementComments depth none r
  termination_by s => s.length

section

variable {depth depth' : Nat} {quote quote' : Option Char}

theorem statementComments_of_lineBreak (lineBreak : isLineBreak c = true) (r : List Char) :
    statementComments depth quote (c :: r) =
      marginComments r ++ statementComments depth none (margin r) := by
  rw [statementComments, if_pos lineBreak]

theorem statementComments_of_closing (h : statementRole depth quote c = .closing) (r : List Char) :
    statementComments depth quote (c :: r) = [] := by
  unfold statementRole at h
  rw [statementComments]
  repeat' split at h
  all_goals simp_all

theorem statementComments_of_inside (h : statementRole depth quote c = .inside depth' quote')
    (r : List Char) : statementComments depth quote (c :: r) = statementComments depth' quote' r := by
  unfold statementRole at h
  rw [statementComments]
  repeat' split at h
  all_goals simp_all

theorem begins_statementComments (opened : a ∈ statementComments depth quote s) :
    BeginsComment a ∧ a <:+ s := by
  have onward : ∀ {c : Char} {t r : List Char}, t <:+ r → BeginsComment a ∧ a <:+ t →
      BeginsComment a ∧ a <:+ c :: r :=
    fun suffix h => ⟨h.1, h.2.trans (suffix.trans (List.suffix_cons _ _))⟩
  induction depth, quote, s using statement_induction with
  | nil =>
    rw [statementComments] at opened
    cases opened
  | lineBreak depth quote c r lineBreak ih =>
    rw [statementComments_of_lineBreak lineBreak] at opened
    rcases List.mem_append.1 opened with here | later
    · exact onward (List.suffix_refl r) (beginsComment_of_mem_marginComments.1 r a here)
    · exact onward (margin_suffix r) (ih depth later)
  | closing depth quote c r role =>
    rw [statementComments_of_closing role] at opened
    cases opened
  | inside depth quote c r depth' quote' role ih =>
    rw [statementComments_of_inside role] at opened
    exact onward (List.suffix_refl r) (ih opened)

/-- Statements go on behind a comment between their lines, whatever is read of the first. -/
theorem resumes_statements (opened : a ∈ statementComments depth quote s) (current : String) :
    Resumes Prod.snd (statements depth quote current) a s := by
  induction depth, quote, s using statement_induction generalizing current with
  | nil =>
    rw [statementComments] at opened
    cases opened
  | lineBreak depth quote c r lineBreak ih =>
    rw [statementComments_of_lineBreak lineBreak] at opened
    obtain ⟨current', before, onward⟩ := statements_lineBreak depth current lineBreak
    have suffix : ∀ found : List (List Char) × List Char, found.2 <:+ found.2 :=
      fun found => List.suffix_refl found.2
    rcases List.mem_append.1 opened with here | later
    · have margins : Resumes Prod.snd (statements depth none current' ∘ margin) a r :=
        .of_margin here (fun _ => rfl) (statements_suffix depth none current')
      exact (margins.map (fun found => (before found.1, found.2)) suffix).cons
        (beginsComment_of_mem_marginComments.1 r a here) (onward quote)
    · obtain ⟨comment, inside⟩ := begins_statementComments later
      have line := (ih depth later current').through keeps_margin comment inside
      exact (line.map (fun found => (before found.1, found.2)) suffix).cons
        ⟨comment, inside.trans (margin_suffix r)⟩ (onward quote)
  | closing depth quote c r role =>
    rw [statementComments_of_closing role] at opened
    cases opened
  | inside depth quote c r depth' quote' role ih =>
    rw [statementComments_of_inside role] at opened
    exact (ih opened (current.push c)).cons (begins_statementComments opened)
      (statements_of_inside role current)

end

/-- The comments in a block of dependencies, from behind its `{`. -/
def dependencyComments (s : List Char) : List (List Char) :=
  marginComments s ++ statementComments 0 none (margin s)

theorem hides_blockDependencies : Hides Prod.snd blockDependencies dependencyComments := by
  have body : Hides Prod.snd (statements 0 none "") (statementComments 0 none) := by
    constructor
    · intro s a opened
      exact begins_statementComments opened
    · intro s a opened
      exact resumes_statements opened ""
  have block := body.comp hides_margin keeps_margin margin_suffix (statements_suffix 0 none "")
  constructor
  · intro s a opened
    exact block.begins opened
  · intro s a opened
    exact (block.resumes opened).map (fun found => (found.1.flatMap declarations, found.2))
      fun _ => List.suffix_refl _

/-! ## Steps -/

/-- The comments in the block of a key that the step to its `{` opens. -/
def blockComments (nesting : Nesting) (st : State) (key : String) (r : List Char) :
    List (List Char) :=
  if nesting.limit ≤ nesting.depth + st.outer.length then []
  else if key = "dependencies" then dependencyComments r
  else marginComments r

theorem hides_openBlock (nesting : Nesting) (st : State) (key : String) :
    Hides Step.rest (openBlock nesting st key) (blockComments nesting st key) := by
  constructor
  · intro r a opened
    unfold blockComments at opened
    split at opened
    · cases opened
    · split at opened
      · exact hides_blockDependencies.begins opened
      · exact hides_margin.begins opened
  · intro r a opened
    unfold blockComments at opened
    split at opened
    · cases opened
    · next room =>
      split at opened
      · next special =>
        let declared (found : List Dependency × List Char) : Step :=
          .next (st.withBlock key (.dependencies found.1)) found.2
        have opens : openBlock nesting st key = declared ∘ blockDependencies := by
          funext r
          rw [openBlock, if_neg room, if_pos special]
          rfl
        rw [opens]
        exact (hides_blockDependencies.resumes opened).map declared fun _ => List.suffix_refl _
      · next other =>
        have opens : openBlock nesting st key = Step.next (st.enter key) ∘ margin := by
          funext r
          rw [openBlock, if_neg room, if_neg other]
          rfl
        rw [opens]
        exact (hides_margin.resumes opened).map _ fun _ => List.suffix_refl _

/-- The comments behind a `}` outside every block. -/
def closeComments (nesting : Nesting) (st : State) (r : List Char) : List (List Char) :=
  if st.outer.isEmpty && nesting.depth == 0 then marginComments r else []

theorem hides_closeBlock (nesting : Nesting) (st : State) :
    Hides Step.rest (closeBlock nesting st) (closeComments nesting st) := by
  constructor
  · intro r a opened
    unfold closeComments at opened
    split at opened
    · exact hides_margin.begins opened
    · cases opened
  · intro r a opened
    unfold closeComments at opened
    split at opened
    · next outermost =>
      have none : st.outer = [] ∧ nesting.depth = 0 := by simpa using outermost
      have drops : closeBlock nesting st = Step.next st.newLine ∘ margin := by
        funext r
        simp only [closeBlock, none.1, none.2, if_true]
        rfl
      rw [drops]
      exact (hides_margin.resumes opened).map _ fun _ => List.suffix_refl _
    · cases opened

/-- The key before a `(` that begins a call, in a scope that keeps no calls. -/
def callToken? (st : State) (c : Char) : Option String :=
  match st.line with
  | .key token => if c == '(' && token ≠ "if" && !st.kind.keepsCalls then some token else none
  | _ => none

/-- The comments in what a character in a key passes over. -/
def keyComments (st : State) (token : String) (c : Char) (r : List Char) : List (List Char) :=
  if c == '(' then
    if token = "if" then conditionalComments (c :: r)
    else if st.kind.keepsCalls then []
    else callComments (c :: r)
  else if isDelimiter c then
    if token = "if" then conditionalComments (c :: r)
    else if token = "else" then alternativeComments (c :: r)
    else if token = "def" then definitionComments (c :: r)
    else []
  else []

/-- The comments that a step of the reader opens. -/
def stepComments (nesting : Nesting) (st : State) (c : Char) (r : List Char) : List (List Char) :=
  if isLineBreak c then marginComments r
  else if c == '}' then closeComments nesting st r
  else match st.line with
    | .done => []
    | .key token =>
      if c == '{' then
        if token = "else" then alternativeComments (c :: r) else blockComments nesting st token r
      else keyComments st token c r
    | .value key _ => if c == '{' then blockComments nesting st key r else []

/-- A comment does not begin with a character that a step looks behind. -/
theorem begins_behind_of_ne (h : BeginsComment a ∧ a <:+ c :: r) (slash : c ≠ '/') :
    BeginsComment a ∧ a <:+ r := by
  obtain ⟨comment, inside⟩ := h
  rcases List.suffix_cons_iff.1 inside with rfl | behind
  · exact absurd (Option.some.inj comment.head?_eq) slash
  · exact ⟨comment, behind⟩

theorem keyComments_eq_role (st : State) (token : String) (c : Char) (r : List Char) :
    keyComments st token c r =
      (keyRole st.kind token c).passed (callComments (c :: r)) (conditionalComments (c :: r))
        (alternativeComments (c :: r)) (definitionComments (c :: r)) [] := by
  unfold keyComments keyRole
  repeat' split
  all_goals first | rfl | simp_all

theorem stepComments_eq_role (nesting : Nesting) (st : State) (c : Char) (r : List Char) :
    stepComments nesting st c r =
      (st.role c).passed (marginComments r) (closeComments nesting st r)
        (alternativeComments (c :: r)) (fun key => blockComments nesting st key r)
        (fun token => keyComments st token c r) [] := by
  unfold stepComments State.role
  split
  · rfl
  · split
    · rfl
    · cases st.line <;> dsimp only <;> repeat' split
      all_goals rfl

theorem begins_keyComments {token : String} (opened : a ∈ keyComments st token c r) :
    BeginsComment a ∧ a <:+ r := by
  have fits := keyRole_fits st.kind token c
  rw [keyComments_eq_role] at opened
  generalize keyRole st.kind token c = role at fits opened
  cases role with
  | call => exact begins_behind_of_ne (hides_skipCall.begins opened) (by rintro rfl; cases fits.1)
  | conditional =>
    refine begins_behind_of_ne (hides_skipConditional.begins opened) ?_
    rintro rfl
    rcases fits with paren | delimiter
    · cases paren
    · cases delimiter
  | alternative =>
    exact begins_behind_of_ne (hides_skipAlternative.begins opened) (by rintro rfl; cases fits)
  | definition =>
    exact begins_behind_of_ne (hides_definition.begins opened) (by rintro rfl; cases fits)
  | _ => cases opened

theorem begins_stepComments (opened : a ∈ stepComments nesting st c r) :
    BeginsComment a ∧ a <:+ r := by
  have fits := role_fits st c
  rw [stepComments_eq_role] at opened
  generalize st.role c = role at fits opened
  cases role with
  | lineBreak => exact hides_margin.begins opened
  | closing => exact (hides_closeBlock nesting st).begins opened
  | alternative =>
    exact begins_behind_of_ne (hides_skipAlternative.begins opened) (by rintro rfl; cases fits.1)
  | opening key => exact (hides_openBlock nesting st key).begins opened
  | inKey token => exact begins_keyComments opened
  | _ => cases opened

/-- A comment behind a character of the text is one of what follows the character. -/
theorem Resumes.of_cons {α : Type} {left : α → List Char} {f : List Char → α}
    (h : Resumes left f a (c :: r)) : Resumes left (fun r => f (c :: r)) a r := by
  obtain ⟨resume, ends, same⟩ := h
  refine ⟨resume, ends, ?_⟩
  intro b r' other upto
  exact same other (.cons c upto)

/-- A step to a state passes over the comments in the text that it skips. -/
theorem Resumes.skipping {f : List Char → List Char} (h : Resumes id f a (c :: r)) (next : State) :
    Resumes Step.rest (fun r => .next next (f (c :: r))) a r :=
  h.of_cons.map (Step.next next) fun _ => List.suffix_refl _

theorem definedStep_suffix (st : State) (found : Option (List Char) × List Char) :
    (KeyRole.definedStep st found).rest <:+ found.2 := by
  obtain ⟨name | name, rest⟩ := found
  · exact List.suffix_refl rest
  · exact List.suffix_refl rest

theorem resumes_keyStep {token : String} (opened : a ∈ keyComments st token c r)
    (noCall : c = '(' → token = "if" ∨ st.kind.keepsCalls = true) :
    Resumes Step.rest (keyStep st token c) a r := by
  have fits := keyRole_fits st.kind token c
  have same : keyStep st token c = fun r => (keyRole st.kind token c).step st token c r :=
    funext (keyStep_eq_role st token c)
  rw [keyComments_eq_role] at opened
  rw [same]
  generalize keyRole st.kind token c = role at fits opened ⊢
  cases role with
  | call =>
    obtain ⟨paren, word, drops⟩ := fits
    rcases noCall paren with keyword | keeps
    · exact absurd keyword word
    · cases drops.symm.trans keeps
  | conditional => exact (hides_skipConditional.resumes opened).skipping _
  | alternative => exact (hides_skipAlternative.resumes opened).skipping _
  | definition =>
    exact (hides_definition.resumes opened).of_cons.map (KeyRole.definedStep st)
      (definedStep_suffix st)
  | _ => cases opened

/-- A step that does not begin a call goes on behind the comments that it opens. -/
theorem resumes_step (opened : a ∈ stepComments nesting st c r) (noCall : callToken? st c = none) :
    Resumes Step.rest (step nesting st c) a r := by
  have fits := role_fits st c
  have same : step nesting st c = fun r => (st.role c).step nesting st c r :=
    funext (step_eq_role nesting st c)
  rw [stepComments_eq_role] at opened
  rw [same]
  generalize st.role c = role at fits opened ⊢
  cases role with
  | lineBreak => exact (hides_margin.resumes opened).map _ fun _ => List.suffix_refl _
  | closing => exact (hides_closeBlock nesting st).resumes opened
  | alternative => exact (hides_skipAlternative.resumes opened).skipping _
  | opening key => exact (hides_openBlock nesting st key).resumes opened
  | inKey token =>
    refine resumes_keyStep opened fun paren => ?_
    rw [callToken?, fits, paren] at noCall
    simpa [or_iff_not_imp_left] using noCall
  | _ => cases opened

/-! ## Calls that become keys -/

/-- The texts from within a call that becomes the key of a block. -/
def callKeyTexts (s : List Char) : List (List Char) :=
  match skipIndent (skipCall s) with
  | '{' :: _ => s.tails.filter fun t => decide ((skipCall s).length < t.length)
  | _ => []

/-- The texts from within the calls that become keys in a run from a state. -/
def keyTexts (nesting : Nesting) (st : State) : List Char → List (List Char)
  | [] => []
  | c :: r =>
    match h : step nesting st c r with
    | .next next rest =>
      have := (suffix_of_step h).length_le
      (if (callToken? st c).isSome then callKeyTexts (c :: r) else []) ++ keyTexts nesting next rest
    | .closed _ _ => []
    | .tooDeep _ => []
  termination_by s => s.length

theorem keyTexts_of_next {next : State} {rest : List Char}
    (taken : step nesting st c r = .next next rest) :
    keyTexts nesting st (c :: r) =
      (if (callToken? st c).isSome then callKeyTexts (c :: r) else []) ++
        keyTexts nesting next rest := by
  rw [keyTexts]
  split <;> simp_all

theorem mem_callKeyTexts {t : List Char} :
    t ∈ callKeyTexts s ↔ (∃ block, skipIndent (skipCall s) = '{' :: block) ∧ t <:+ s ∧
      (skipCall s).length < t.length := by
  unfold callKeyTexts
  split
  · next block opens => simp [opens]
  · next absent =>
    constructor
    · intro member
      cases member
    · rintro ⟨⟨block, opens⟩, -⟩
      exact (absent block opens).elim

theorem suffix_of_mem_keyTexts {t : List Char} (inside : t ∈ keyTexts nesting st s) :
    t <:+ s ∧ t ≠ [] := by
  fun_induction keyTexts nesting st s with
  | case1 => cases inside
  | case2 st c r next rest taken _ ih =>
    rcases List.mem_append.1 inside with here | later
    · split at here
      · obtain ⟨-, suffix, longer⟩ := mem_callKeyTexts.1 here
        refine ⟨suffix, ?_⟩
        rintro rfl
        exact absurd longer (Nat.not_lt_zero _)
      · cases here
    · obtain ⟨suffix, nonempty⟩ := ih later
      exact ⟨suffix.trans ((suffix_of_step taken).trans (List.suffix_cons c r)), nonempty⟩
  | case3 => cases inside
  | case4 => cases inside

/-- No call behind a comment has the comment in it. -/
theorem not_mem_keyTexts_behind (other : b = [] ∨ BeginsComment b) (behind : s <:+ margin b) :
    b ∉ keyTexts nesting st s := by
  intro inside
  obtain ⟨suffix, nonempty⟩ := suffix_of_mem_keyTexts inside
  rcases other with rfl | comment
  · exact nonempty rfl
  · have := comment.length_margin_lt
    have := suffix.length_le
    have := behind.length_le
    omega

/-- A call that becomes the key of a block, as what it leaves. -/
theorem callStep_of_opening (st : State) (token : String) {block : List Char}
    (opens : skipIndent (skipCall s) = '{' :: block) :
    ∃ line, callStep st token s = .next { st with line := line } ('{' :: block) := by
  refine ⟨.key (token ++ String.ofList (s.take (s.length - (skipCall s).length))), ?_⟩
  simp only [callStep, opens]

theorem callStep_of_dropped {token : String}
    (absent : ∀ block, skipIndent (skipCall s) = '{' :: block → False) :
    callStep st token s = .next { st with line := .key "" } (skipCall s) := by
  simp only [callStep]

theorem step_of_callToken? (nesting : Nesting) {token : String}
    (call : callToken? st c = some token) :
    c = '(' ∧ (∀ r, step nesting st c r = callStep st token ('(' :: r)) ∧
      ∀ r, stepComments nesting st c r = callComments ('(' :: r) := by
  unfold callToken? at call
  split at call
  · next key line =>
    split at call
    · next begins =>
      cases call
      obtain ⟨⟨rfl, word⟩, drops⟩ : (c = '(' ∧ token ≠ "if") ∧ st.kind.keepsCalls = false := by
        simpa using begins
      refine ⟨rfl, ?_, ?_⟩
      · intro r
        simp [step, keyStep, line, word, drops, isLineBreak]
      · intro r
        simp [stepComments, keyComments, line, word, drops, isLineBreak]
    · cases call
  · cases call

/-! ## Runs -/

/-- The comments that the reader opens from a state on. -/
def readComments (nesting : Nesting) (st : State) : List Char → List (List Char)
  | [] => []
  | c :: r =>
    match h : step nesting st c r with
    | .next next rest =>
      have := (suffix_of_step h).length_le
      stepComments nesting st c r ++ readComments nesting next rest
    | .closed _ _ => []
    | .tooDeep _ => []
  termination_by s => s.length

theorem readComments_of_next {next : State} {rest : List Char}
    (taken : step nesting st c r = .next next rest) :
    readComments nesting st (c :: r) =
      stepComments nesting st c r ++ readComments nesting next rest := by
  rw [readComments]
  split <;> simp_all

theorem begins_readComments (opened : a ∈ readComments nesting st s) :
    BeginsComment a ∧ a <:+ s := by
  fun_induction readComments nesting st s with
  | case1 => cases opened
  | case2 st c r next rest taken _ ih =>
    rcases List.mem_append.1 opened with here | later
    · obtain ⟨comment, inside⟩ := begins_stepComments here
      exact ⟨comment, inside.trans (List.suffix_cons c r)⟩
    · obtain ⟨comment, inside⟩ := ih later
      exact ⟨comment, inside.trans ((suffix_of_step taken).trans (List.suffix_cons c r))⟩
  | case3 => cases opened
  | case4 => cases opened

/-- What the reader comes to, unless the text `b` begins within a call that becomes a key. -/
def readOutsideKeys? (nesting : Nesting) (st : State) (b s : List Char) : Option Reading :=
  if b ∈ keyTexts nesting st s then none else some (read nesting st s)

/-- Reading goes on behind the comment `a`, with which the text ends, with what the margin leaves,
whichever comment stands there or if none does. -/
def ReadResumes (nesting : Nesting) (st : State) (a s : List Char) : Prop :=
  ∃ resume : List Char → Option Reading, (∀ m last, resume m = some last → last.rest <:+ m) ∧
    ∀ ⦃b s' : List Char⦄, (b = [] ∨ BeginsComment b) → Upto a b s s' →
      readOutsideKeys? nesting st b s' = resume (margin b)

theorem rest_suffix_of_read (nesting : Nesting) (st : State) (s : List Char) :
    (read nesting st s).rest <:+ s := by
  rcases stops_or_ends nesting st s with stops | ⟨doc, ends⟩
  · obtain ⟨p, text⟩ := stops.eq_append
    exact (List.suffix_cons _ _).trans ⟨p, text.symm⟩
  · rw [ends]
    exact List.nil_suffix

theorem readOutsideKeys?_behind (nesting : Nesting) (st : State)
    (other : b = [] ∨ BeginsComment b) (behind : s <:+ margin b) :
    readOutsideKeys? nesting st b s = some (read nesting st s) :=
  if_neg (not_mem_keyTexts_behind other behind)

/-- A step that leaves the text `b` is not the call that has it in its key. -/
theorem readOutsideKeys?_of_next {next : State} {rest : List Char}
    (taken : step nesting st c r = .next next rest) (ahead : b <:+ rest) :
    readOutsideKeys? nesting st b (c :: r) = readOutsideKeys? nesting next b rest := by
  have outside : b ∉ if (callToken? st c).isSome then callKeyTexts (c :: r) else [] := by
    intro inside
    split at inside
    · next call =>
      obtain ⟨token, call⟩ := Option.isSome_iff_exists.1 call
      obtain ⟨rfl, same, -⟩ := step_of_callToken? nesting call
      obtain ⟨⟨block, opens⟩, -, longer⟩ := mem_callKeyTexts.1 inside
      have left : rest = '{' :: block := by
        obtain ⟨line, called⟩ := callStep_of_opening st token opens
        rw [same, called] at taken
        cases taken
        rfl
      have short := (skipIndent_suffix (skipCall ('(' :: r))).length_le
      have := ahead.length_le
      rw [opens, ← left] at short
      omega
    · cases inside
  have members : b ∈ keyTexts nesting st (c :: r) ↔ b ∈ keyTexts nesting next rest := by
    rw [keyTexts_of_next taken, List.mem_append]
    exact or_iff_right outside
  simp only [readOutsideKeys?, members, read_of_next taken]

/-- A comment in a call is passed over with it, unless the call becomes the key of a block. -/
theorem readResumes_call {token : String} (call : callToken? st c = some token)
    (opened : a ∈ stepComments nesting st c r) : ReadResumes nesting st a (c :: r) := by
  obtain ⟨rfl, same, comments⟩ := step_of_callToken? nesting call
  rw [comments] at opened
  obtain ⟨resume, ends, skips⟩ := hides_skipCall.resumes opened
  have inside := (begins_behind_of_ne (hides_skipCall.begins opened) (by decide)).2
  refine ⟨fun m =>
    match skipIndent (resume m) with
    | '{' :: _ => none
    | _ => some (read nesting { st with line := .key "" } (resume m)), ?_, ?_⟩
  · intro m last found
    simp only at found
    split at found
    · cases found
    · cases found
      exact (rest_suffix_of_read ..).trans (ends m)
  · intro b s' other upto
    have left := skips other upto
    have behind : skipCall s' <:+ margin b := left ▸ ends (margin b)
    obtain ⟨r', rfl, ahead⟩ := upto.behind (List.suffix_refl r) inside.length_le
    simp only [← left]
    split
    · next block opens =>
      have comment : BeginsComment b := by
        refine other.resolve_left ?_
        rintro rfl
        rw [List.suffix_nil.1 behind] at opens
        cases opens
      obtain ⟨line, called⟩ := callStep_of_opening st token opens
      have taken := (same r').trans called
      refine if_pos ?_
      rw [keyTexts_of_next taken, call]
      refine List.mem_append_left _ (mem_callKeyTexts.2 ⟨⟨block, opens⟩, ?_, ?_⟩)
      · exact ahead.suffix.trans (List.suffix_cons '(' r')
      · exact Nat.lt_of_le_of_lt behind.length_le comment.length_margin_lt
    · next absent =>
      have taken := (same r').trans (callStep_of_dropped absent)
      have outside : b ∉ keyTexts nesting st ('(' :: r') := by
        rw [keyTexts_of_next taken, call]
        intro member
        rcases List.mem_append.1 member with here | later
        · obtain ⟨⟨block, opens⟩, -⟩ := mem_callKeyTexts.1 here
          exact absent block opens
        · exact not_mem_keyTexts_behind other behind later
      rw [readOutsideKeys?, if_neg outside, read_of_next taken]

/-- Read on from a step. -/
def readOn (nesting : Nesting) : Step → Reading
  | .next next rest => read nesting next rest
  | .closed doc rest => .closed doc rest
  | .tooDeep rest => .tooDeep rest

theorem read_cons (nesting : Nesting) (st : State) (c : Char) (r : List Char) :
    read nesting st (c :: r) = readOn nesting (step nesting st c r) := by
  cases taken : step nesting st c r with
  | next next rest => exact read_of_next taken
  | closed doc rest => exact read_of_closed taken
  | tooDeep rest => exact read_of_tooDeep taken

theorem readOn_suffix (nesting : Nesting) (taken : Step) :
    (readOn nesting taken).rest <:+ taken.rest := by
  cases taken with
  | next next rest => exact rest_suffix_of_read nesting next rest
  | closed doc rest => exact List.suffix_refl rest
  | tooDeep rest => exact List.suffix_refl rest

/-- The first step of a run from a comment that the step opens. -/
theorem readResumes_step (opened : a ∈ stepComments nesting st c r) :
    ReadResumes nesting st a (c :: r) := by
  cases call : callToken? st c with
  | some token => exact readResumes_call call opened
  | none =>
    have inside := (begins_stepComments opened).2
    obtain ⟨resume, ends, same⟩ := resumes_step opened call
    refine ⟨fun m => some (readOn nesting (resume m)), ?_, ?_⟩
    · intro m last found
      cases found
      exact (readOn_suffix nesting (resume m)).trans (ends m)
    · intro b s' other upto
      obtain ⟨r', rfl, behind⟩ := upto.behind (List.suffix_refl r) inside.length_le
      have taken := same other behind
      have left := ends (margin b)
      have outside : b ∉ keyTexts nesting st (c :: r') := by
        intro member
        rw [keyTexts] at member
        split at member
        · next next rest goesOn =>
          rw [goesOn] at taken
          rw [← taken] at left
          rw [call] at member
          exact not_mem_keyTexts_behind other left member
        · cases member
        · cases member
      rw [readOutsideKeys?, if_neg outside, read_cons, taken]

/-- Reading goes on behind a comment that it opens, whatever the comment says. -/
theorem read_resumes (opened : a ∈ readComments nesting st s) : ReadResumes nesting st a s := by
  fun_induction readComments nesting st s with
  | case1 => cases opened
  | case2 st c r next rest taken _ ih =>
    rcases List.mem_append.1 opened with here | later
    · exact readResumes_step here
    · obtain ⟨comment, inside⟩ := begins_readComments later
      obtain ⟨resume, ends, same⟩ := ih later
      refine ⟨resume, ends, ?_⟩
      intro b s' other upto
      obtain ⟨r', rfl, behind⟩ := upto.behind (suffix_of_step taken) inside.length_le
      have alike := step_upto (comment.seam other) nesting st c behind
        (by rw [taken]; exact inside.length_le)
      rw [taken] at alike
      generalize taken' : step nesting st c r' = next' at alike
      cases alike with
      | next _ onward =>
        rw [readOutsideKeys?_of_next taken' onward.suffix]
        exact same other onward
  | case3 => cases opened
  | case4 => cases opened

end BuildScript
