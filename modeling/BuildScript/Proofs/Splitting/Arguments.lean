import BuildScript.Proofs.Dependencies.Arguments
import BuildScript.Proofs.Splitting.Enclosure

/-!
# Splitting at commas

The arguments of a text stand between the commas that are met where nothing is open.  Splitting
finds again what was joined with commas, and joining what was found gives the text again, up to
blanks.
-/

namespace BuildScript.Splitting

open Text Unicode Dependencies

variable {e : Enclosure} {c : Char} {s text : List Char} {items : List (List Char)}

/-! ## One character -/

theorem argumentPieces_comma (r : List Char) :
    argumentPieces 0 none (',' :: r) = [] :: argumentPieces 0 none r := rfl

/-- Every other character belongs to the first piece of what follows. -/
theorem argumentPieces_inside (inside : ¬ (c = ',' ∧ e = .outside)) (r : List Char) :
    argumentPieces e.depth e.quote (c :: r) =
      prependToFirst c (argumentPieces (e.after c).depth (e.after c).quote r) := by
  have kept : ¬ (!inLiteral e.quote c && c == ',' && e.depth == 0) = true := by
    intro cut
    simp only [Bool.and_eq_true, beq_iff_eq, Bool.not_eq_true', inLiteral, Bool.or_eq_false_iff,
      Option.isSome_eq_false_iff, Option.isNone_iff_eq_none] at cut
    exact inside ⟨cut.1.2, Enclosure.eq_outside_iff.2 ⟨cut.2, cut.1.1.1⟩⟩
  rw [argumentPieces, if_neg kept, Enclosure.after_eq]
  rfl

/-! ## Joining the pieces -/

theorem prependToFirst_ne_nil (c : Char) (pieces : List (List Char)) :
    prependToFirst c pieces ≠ [] := by
  cases pieces <;> exact List.cons_ne_nil _ _

theorem argumentPieces_ne_nil (e : Enclosure) (s : List Char) :
    argumentPieces e.depth e.quote s ≠ [] := by
  cases s with
  | nil => exact List.cons_ne_nil _ _
  | cons c s =>
    by_cases cut : c = ',' ∧ e = .outside
    · obtain ⟨rfl, rfl⟩ := cut
      exact List.cons_ne_nil _ _
    · rw [argumentPieces_inside cut]
      exact prependToFirst_ne_nil c _

theorem joined_prependToFirst (separator : List Char) (c : Char) {pieces : List (List Char)}
    (nonempty : pieces ≠ []) :
    joined separator (prependToFirst c pieces) = c :: joined separator pieces := by
  obtain ⟨piece, others, rfl⟩ := List.exists_cons_of_ne_nil nonempty
  rw [prependToFirst, joined_eq_append_flatMap, joined_eq_append_flatMap, List.cons_append]

/-- The pieces with their commas are the text. -/
theorem joined_argumentPieces (e : Enclosure) (s : List Char) :
    joined [','] (argumentPieces e.depth e.quote s) = s := by
  induction s generalizing e with
  | nil => rfl
  | cons c s ih =>
    by_cases cut : c = ',' ∧ e = .outside
    · obtain ⟨rfl, rfl⟩ := cut
      have nonempty : argumentPieces 0 none s ≠ [] := argumentPieces_ne_nil .outside s
      have behind : joined [','] (argumentPieces 0 none s) = s := ih .outside
      change joined [','] ([] :: argumentPieces 0 none s) = ',' :: s
      rw [joined_cons _ _ nonempty, behind, List.nil_append, List.singleton_append]
    · rw [argumentPieces_inside cut, joined_prependToFirst _ c (argumentPieces_ne_nil _ s), ih]

/-! ## Texts that are not cut -/

/-- Splitting passes over a text that is not cut and goes on with what is open behind it. -/
theorem argumentPieces_append (uncut : NoneOutside Enclosure.after ',' e s) (r : List Char) :
    argumentPieces e.depth e.quote (s ++ r) =
      s.foldr prependToFirst (argumentPieces (s.foldl Enclosure.after e).depth
        (s.foldl Enclosure.after e).quote r) := by
  induction s generalizing e with
  | nil => rfl
  | cons c s ih =>
    obtain ⟨inside, behind⟩ := noneOutside_cons_iff.1 uncut
    rw [List.cons_append, argumentPieces_inside inside, ih behind]
    rfl

/-! ## Joined arguments -/

/-- A text that splitting gives back whole: it closes all that it opens, and no comma cuts it. -/
structure IsArgument (s : List Char) : Prop where
  nonempty : s ≠ []
  trimmed : IsTrimmed s
  closed : s.foldl Enclosure.after .outside = .outside
  uncut : NoneOutside Enclosure.after ',' .outside s

/-- The text consists of the items with commas between them and any blanks around each comma. -/
inductive CommaJoined : List (List Char) → List Char → Prop
  | last (item : List Char) : CommaJoined [item] item
  | cons (item : List Char) {before behind text : List Char} {items : List (List Char)}
      (hbefore : ∀ c ∈ before, isBlank c = true) (hbehind : ∀ c ∈ behind, isBlank c = true)
      (others : CommaJoined items text) :
      CommaJoined (item :: items) (item ++ (before ++ ',' :: (behind ++ text)))

theorem inArgument_of_isBlank (blank : isBlank c = true) : inArgument c = true := by
  have other : ∀ {d : Char}, isBlank d = false → c ≠ d := by
    rintro d notBlank rfl
    rw [blank] at notBlank
    cases notBlank
  have quote : isQuote c = false := by
    cases same : isQuote c with
    | false => rfl
    | true => rw [isBlank_of_isQuote same] at blank; cases blank
  have plain : isPlain c = true := isPlain_iff.2 ⟨quote, other (by decide), other (by decide),
    other (by decide), other (by decide), other (by decide), other (by decide)⟩
  simp [inArgument, plain, other (show isBlank ',' = false by decide)]

theorem argumentPieces_blanks {blanks : List Char} (blank : ∀ c ∈ blanks, isBlank c = true)
    {r piece : List Char} {pieces : List (List Char)}
    (behind : argumentPieces 0 none r = piece :: pieces) :
    argumentPieces 0 none (blanks ++ r) = (blanks ++ piece) :: pieces :=
  argumentPieces_flat (flat_of_forall fun c hc => inArgument_of_isBlank (blank c hc)) behind

theorem IsArgument.argumentPieces_append (h : IsArgument s) {r piece : List Char}
    {pieces : List (List Char)} (behind : argumentPieces 0 none r = piece :: pieces) :
    argumentPieces 0 none (s ++ r) = (s ++ piece) :: pieces := by
  have passed := Splitting.argumentPieces_append h.uncut r
  rw [h.closed] at passed
  change argumentPieces 0 none (s ++ r) = s.foldr prependToFirst (argumentPieces 0 none r) at passed
  rw [passed, behind, foldr_prependToFirst]

/-- The pieces of a joined text are the items, with the blanks that stand around the commas. -/
theorem map_trim_argumentPieces (whole : CommaJoined items text)
    (arguments : ∀ item ∈ items, IsArgument item) {blanks : List Char}
    (blank : ∀ c ∈ blanks, isBlank c = true) :
    (argumentPieces 0 none (blanks ++ text)).map trim = items := by
  induction whole generalizing blanks with
  | last item =>
    have argument := arguments item (by simp)
    have pieces := argumentPieces_blanks blank
      (argument.argumentPieces_append (show argumentPieces 0 none [] = [[]] from rfl))
    rw [List.append_nil] at pieces
    rw [pieces, List.map_singleton, argument.trimmed.trim_before argument.nonempty blank]
  | @cons item before behind text items hbefore hbehind others ih =>
    have argument := arguments item (by simp)
    have later := ih (fun item member => arguments item (by simp [member])) hbehind
    have pieces := argumentPieces_blanks blank (argument.argumentPieces_append
      (argumentPieces_blanks hbefore (argumentPieces_comma (behind ++ text))))
    rw [List.append_nil] at pieces
    rw [pieces, List.map_cons, later, argument.trimmed.trim_append argument.nonempty blank hbefore]

theorem CommaJoined.allBlank_eq_false (whole : CommaJoined items text)
    (arguments : ∀ item ∈ items, IsArgument item) : allBlank text = false := by
  have visibly : ∀ {item : List Char}, IsArgument item → allBlank item = false :=
    fun argument => argument.trimmed.allBlank_eq_false argument.nonempty
  cases whole with
  | last => exact visibly (arguments text (by simp))
  | cons item => rw [allBlank, List.all_append, ← allBlank, visibly (arguments item (by simp)),
      Bool.false_and]

theorem splitArguments_of_commaJoined (whole : CommaJoined items text)
    (arguments : ∀ item ∈ items, IsArgument item) : splitArguments text = items := by
  rw [splitArguments, whole.allBlank_eq_false arguments]
  exact map_trim_argumentPieces whole arguments (fun c hc => absurd hc List.not_mem_nil)

theorem visible_of_allBlank (blank : allBlank s = true) : visible s = [] := by
  simpa [visible, allBlank] using blank

theorem visible_joined_splitArguments (s : List Char) :
    visible (joined [','] (splitArguments s)) = visible s := by
  unfold splitArguments
  split
  · next blank => exact (visible_of_allBlank blank).symm
  · have whole : joined [','] (argumentPieces 0 none s) = s := joined_argumentPieces .outside s
    rw [visible_joined_map_trim, whole]

/-! ## Splitting and joining -/

/-- Splitting inverts joining, whatever blanks stand around the commas, and joining the arguments of
any text gives its characters again, all but blank ones. -/
theorem splitArguments_inverts_joining :
    (∀ {items : List (List Char)} {text : List Char}, (∀ item ∈ items, IsArgument item) →
      CommaJoined items text → splitArguments text = items) ∧
    ∀ s : List Char, visible (joined [','] (splitArguments s)) = visible s :=
  ⟨fun arguments whole => splitArguments_of_commaJoined whole arguments,
    visible_joined_splitArguments⟩

/-- A literal, a call and a list, each with a comma of its own. -/
def commaArguments : List (List Char) := ["'a, b'".toList, "c(d, e)".toList, "[f, \"]\"]".toList]

def commaArgumentsText : List Char := "'a, b' ,\n\tc(d, e),[f, \"]\"]".toList

theorem splitArguments_inverts_joining_commaArguments :
    (∀ item ∈ commaArguments, IsArgument item) ∧ CommaJoined commaArguments commaArgumentsText ∧
      splitArguments commaArgumentsText = commaArguments := by
  have arguments : ∀ item ∈ commaArguments, IsArgument item := by
    have each : ∀ item ∈ commaArguments, item ≠ [] ∧ trim item = item ∧
        item.foldl Enclosure.after .outside = .outside ∧
        NoneOutside Enclosure.after ',' .outside item := by decide +kernel
    intro item member
    obtain ⟨nonempty, trimmed, closed, uncut⟩ := each item member
    exact ⟨nonempty, trimmed ▸ isTrimmed_trim item, closed, uncut⟩
  have whole : CommaJoined commaArguments commaArgumentsText :=
    @CommaJoined.cons _ " ".toList "\n\t".toList _ _ (by decide) (by decide)
      (@CommaJoined.cons _ [] [] _ _ (by decide) (by decide) (.last _))
  exact ⟨arguments, whole, splitArguments_inverts_joining.1 arguments whole⟩

end BuildScript.Splitting
