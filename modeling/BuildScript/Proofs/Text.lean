import BuildScript.Comment

/-!
# Trimmed texts, literals and lines

What trimming, unquoting and splitting into lines give for texts whose parts are known.
-/

namespace BuildScript

open Text Unicode

theorem forall_mem_head? {kind : Char → Prop} {c : Char} (h : kind c) (s : List Char) :
    ∀ d ∈ (c :: s).head?, kind d := by
  intro d hd
  cases hd
  exact h

/-! ## Trimming -/

theorem isBlank_of_isIndent {c : Char} (h : isIndent c = true) : isBlank c = true := by
  rcases eq_of_isIndent h with rfl | rfl <;> decide

theorem isBlank_of_isLineBreak {c : Char} (h : isLineBreak c = true) : isBlank c = true := by
  rcases eq_of_isLineBreak h with rfl | rfl <;> decide

theorem trimEnd_append {s blanks : List Char} (last : ∀ c ∈ s.getLast?, isBlank c = false)
    (h : ∀ c ∈ blanks, isBlank c = true) : trimEnd (s ++ blanks) = s := by
  have reversed : ∀ c ∈ blanks.reverse, isBlank c = true := fun c hc => h c (by simpa using hc)
  rw [trimEnd, List.reverse_append, List.dropWhile_append_of_pos reversed]
  cases same : s.reverse with
  | nil => simpa using same.symm
  | cons c r =>
    have ends : s.getLast? = some c := by rw [← List.head?_reverse, same]; rfl
    rw [List.dropWhile_cons_of_neg (by simp [last c (by simp [ends])]), ← same,
      List.reverse_reverse]

theorem trimEnd_concat {c : Char} (h : isBlank c = true) (s : List Char) :
    trimEnd (s ++ [c]) = trimEnd s := by
  rw [trimEnd, List.reverse_append, List.reverse_singleton, List.singleton_append,
    List.dropWhile_cons_of_pos h, trimEnd]

theorem trim_concat {c : Char} (h : isBlank c = true) (s : List Char) : trim (s ++ [c]) = trim s := by
  rw [trim, trim, trimStart, trimStart, List.dropWhile_append]
  split
  · next empty =>
    rw [List.isEmpty_iff.1 empty, List.dropWhile_cons_of_pos h]
    rfl
  · exact trimEnd_concat h _

/-- The visible characters of ASCII are not blank. -/
theorem isBlank_eq_false_of_toNat {c : Char} (low : 33 ≤ c.toNat) (high : c.toNat < 128) :
    isBlank c = false := by
  have space : c ≠ ' ' := by rintro rfl; exact absurd low (by decide)
  have controls : ¬ c ≤ '\r' := by
    intro le
    have : c.toNat ≤ 13 := UInt32.le_iff_toNat_le.1 le
    omega
  simp [isBlank, inRanges, space, controls]
  omega

theorem toNat_of_isAlphanum {c : Char} (h : c.isAlphanum = true) : 48 ≤ c.toNat ∧ c.toNat < 128 := by
  delta Char.isAlphanum Char.isAlpha Char.isUpper Char.isLower Char.isDigit at h
  simp only [Bool.or_eq_true, Bool.and_eq_true, decide_eq_true_eq, UInt32.le_iff_toNat_le,
    ge_iff_le] at h
  have value : c.toNat = c.val.toNat := rfl
  have bounds : '0'.val.toNat = 48 ∧ '9'.val.toNat = 57 ∧ 'A'.val.toNat = 65 ∧
    'Z'.val.toNat = 90 ∧ 'a'.val.toNat = 97 ∧ 'z'.val.toNat = 122 := by decide
  omega

/-- A text that begins and ends with characters that are not blank. -/
structure IsTrimmed (s : List Char) : Prop where
  first : ∀ c ∈ s.head?, isBlank c = false
  last : ∀ c ∈ s.getLast?, isBlank c = false

theorem trimStart_append {blanks s : List Char} (h : ∀ c ∈ blanks, isBlank c = true)
    (first : ∀ c ∈ s.head?, isBlank c = false) : trimStart (blanks ++ s) = s := by
  rw [trimStart, List.dropWhile_append_of_pos h]
  cases s with
  | nil => rfl
  | cons c s => rw [List.dropWhile_cons_of_neg (by simp [first c rfl])]

/-- Trimming takes away the blanks around a text and nothing else. -/
theorem IsTrimmed.trim_append {before s behind : List Char} (trimmed : IsTrimmed s)
    (nonempty : s ≠ []) (hbefore : ∀ c ∈ before, isBlank c = true)
    (hbehind : ∀ c ∈ behind, isBlank c = true) : trim (before ++ (s ++ behind)) = s := by
  have first : ∀ c ∈ (s ++ behind).head?, isBlank c = false := by
    intro c hc
    obtain ⟨d, r, rfl⟩ := List.exists_cons_of_ne_nil nonempty
    exact trimmed.first c (by simpa using hc)
  rw [trim, trimStart_append hbefore first, trimEnd_append trimmed.last hbehind]

theorem IsTrimmed.trim_before {before s : List Char} (trimmed : IsTrimmed s) (nonempty : s ≠ [])
    (blank : ∀ c ∈ before, isBlank c = true) : trim (before ++ s) = s := by
  have whole := trimmed.trim_append nonempty blank (fun c hc => absurd hc List.not_mem_nil)
  rwa [List.append_nil] at whole

theorem IsTrimmed.trim_behind {s behind : List Char} (trimmed : IsTrimmed s) (nonempty : s ≠ [])
    (blank : ∀ c ∈ behind, isBlank c = true) : trim (s ++ behind) = s :=
  trimmed.trim_append nonempty (fun _ hc => absurd hc List.not_mem_nil) blank

theorem IsTrimmed.trimEnd_eq {s : List Char} (trimmed : IsTrimmed s) : trimEnd s = s := by
  have whole := trimEnd_append trimmed.last (fun c hc => absurd hc List.not_mem_nil)
  rwa [List.append_nil] at whole

theorem IsTrimmed.trim_eq {s : List Char} (trimmed : IsTrimmed s) : trim s = s := by
  have start := trimStart_append (fun c hc => absurd hc List.not_mem_nil) trimmed.first
  rw [List.nil_append] at start
  rw [trim, start, trimmed.trimEnd_eq]

/-- The text has a last character, and it is of a kind. -/
def EndsIn (kind : Char → Prop) (s : List Char) : Prop := ∃ c, s.getLast? = some c ∧ kind c

theorem endsIn_concat {kind : Char → Prop} {c : Char} (h : kind c) (s : List Char) :
    EndsIn kind (s ++ [c]) :=
  ⟨c, List.getLast?_concat, h⟩

theorem EndsIn.append {kind : Char → Prop} {s : List Char} (h : EndsIn kind s) (before : List Char) :
    EndsIn kind (before ++ s) := by
  obtain ⟨c, last, ofKind⟩ := h
  exact ⟨c, by rw [List.getLast?_append, last, Option.some_or], ofKind⟩

theorem EndsIn.mono {kind other : Char → Prop} {s : List Char} (h : EndsIn kind s)
    (imp : ∀ c, kind c → other c) : EndsIn other s := by
  obtain ⟨c, last, ofKind⟩ := h
  exact ⟨c, last, imp c ofKind⟩

theorem EndsIn.append_flatMap {α : Type} {kind : Char → Prop} {s : List Char} (h : EndsIn kind s)
    {text : α → List Char} {others : List α} (ends : ∀ x ∈ others, EndsIn kind (text x)) :
    EndsIn kind (s ++ others.flatMap text) := by
  induction others generalizing s with
  | nil => simpa using h
  | cons x others ih =>
    rw [List.flatMap_cons, ← List.append_assoc]
    exact ih ((ends x (by simp)).append s) fun y hy => ends y (by simp [hy])

theorem IsTrimmed.of_endsIn {s : List Char} (first : ∀ c ∈ s.head?, isBlank c = false)
    (h : EndsIn (isBlank · = false) s) : IsTrimmed s := by
  refine ⟨first, ?_⟩
  obtain ⟨c, last, notBlank⟩ := h
  rw [last]
  intro d hd
  cases hd
  exact notBlank

theorem IsTrimmed.allBlank_eq_false {s : List Char} (trimmed : IsTrimmed s) (nonempty : s ≠ []) :
    allBlank s = false := by
  obtain ⟨c, r, rfl⟩ := List.exists_cons_of_ne_nil nonempty
  simp [allBlank, trimmed.first c rfl]

/-! ## Separators -/

theorem joined_eq_append_flatMap (separator first : List Char) (others : List (List Char)) :
    joined separator (first :: others) = first ++ others.flatMap (separator ++ ·) := by
  induction others generalizing first with
  | nil => simp [joined]
  | cons next others ih =>
    rw [joined_cons _ _ (by simp), ih, List.flatMap_cons, List.append_assoc, List.append_assoc]

theorem cut?_append {separator : Char} {s : List Char} (h : separator ∉ s) (r : List Char) :
    cut? separator (s ++ separator :: r) = some (s, r) := by
  induction s with
  | nil => simp [cut?]
  | cons c s ih =>
    have other : c ≠ separator := fun same => h (by simp [same])
    have behind : separator ∉ s := fun hs => h (List.mem_cons_of_mem _ hs)
    simp [cut?, other, ih behind]

/-! ## Literals -/

theorem isBlank_of_isQuote {c : Char} (h : isQuote c = true) : isBlank c = false := by
  rcases eq_of_isQuote h with rfl | rfl <;> decide

theorem endsIn_literal {q : Char} (h : isQuote q = true) (content : List Char) :
    EndsIn (isQuote · = true) (q :: (content ++ [q])) :=
  endsIn_concat h (q :: content)

theorem isTrimmed_literal {q : Char} (h : isQuote q = true) (content : List Char) :
    IsTrimmed (q :: (content ++ [q])) := by
  exact .of_endsIn (forall_mem_head? (isBlank_of_isQuote h) _)
    ((endsIn_literal h content).mono fun c => isBlank_of_isQuote)

theorem unquote_literal {q : Char} (h : isQuote q = true) (content : List Char) :
    unquote (q :: (content ++ [q])) = content := by
  simp [unquote, h]

theorem unquote_of_not_isQuote {c : Char} (h : isQuote c = false) (s : List Char) :
    unquote (c :: s) = c :: s := by
  simp [unquote, h]

/-! ## Lines -/

theorem splitOn_append (separator : Char) (s r : List Char) :
    splitOn separator (s ++ separator :: r) = splitOn separator s ++ splitOn separator r := by
  induction s with
  | nil => simp [splitOn]
  | cons c s ih =>
    by_cases same : c = separator
    · simp [splitOn, same, ih]
    · obtain ⟨piece, pieces, split⟩ := List.exists_cons_of_ne_nil (splitOn_ne_nil separator s)
      simp [splitOn, same, ih, split]

theorem splitOn_eq_singleton {separator : Char} {s : List Char} (h : separator ∉ s) :
    splitOn separator s = [s] := by
  induction s with
  | nil => rfl
  | cons c s ih =>
    have other : c ≠ separator := fun same => h (by simp [same])
    simp [splitOn, other, ih fun member => h (List.mem_cons_of_mem _ member)]

/-- A line feed ends the first line. -/
theorem lines_append {s : List Char} (lineFeed : '\n' ∉ s) (carriageReturn : s.getLast? ≠ some '\r')
    (r : List Char) : lines (s ++ '\n' :: r) = s :: lines r := by
  obtain ⟨piece, pieces, split⟩ := List.exists_cons_of_ne_nil (splitOn_ne_nil '\n' r)
  simp only [lines, splitOn_append, splitOn_eq_singleton lineFeed, split, List.singleton_append,
    List.dropLast_cons_cons, List.map_cons, List.getLast?_cons_cons]
  rw [if_neg (by simpa using carriageReturn)]
  split <;> simp_all

end BuildScript
