import BuildScript.Proofs.Text

/-!
# Texts with other line breaks

What is read of a text does not depend on how its line breaks are written: a text in which every
line feed is written in another way is taken apart in the same places, and its parts are those of
the text itself, written in that way.
-/

namespace BuildScript

open Text Unicode

/-! ## Ways to write a line feed -/

/-- Line breaks that stand for a line feed. -/
structure Breaks where
  chars : List Char
  nonempty : chars ≠ []
  isBreak : ∀ c ∈ chars, c = '\r' ∨ c = '\n'

namespace Breaks

/-- The text with its line feeds written in this way. -/
def write (breaks : Breaks) (s : List Char) : List Char :=
  s.flatMap fun c => if c = '\n' then breaks.chars else [c]

def reversed (breaks : Breaks) : Breaks where
  chars := breaks.chars.reverse
  nonempty := by simpa using breaks.nonempty
  isBreak := fun c hc => breaks.isBreak c (List.mem_reverse.1 hc)

theorem reversed_reversed (breaks : Breaks) : breaks.reversed.reversed = breaks := by
  simp [reversed]

variable (breaks : Breaks) {s t : List Char} {c : Char}

@[simp] theorem write_nil : breaks.write [] = [] := rfl

@[simp] theorem write_lineFeed (s : List Char) :
    breaks.write ('\n' :: s) = breaks.chars ++ breaks.write s := rfl

theorem write_cons (other : c ≠ '\n') (s : List Char) :
    breaks.write (c :: s) = c :: breaks.write s := by
  simp [write, other]

theorem write_append (s t : List Char) :
    breaks.write (s ++ t) = breaks.write s ++ breaks.write t := List.flatMap_append

theorem write_concat (other : c ≠ '\n') (s : List Char) :
    breaks.write (s ++ [c]) = breaks.write s ++ [c] := by
  rw [write_append, write_cons breaks other, write_nil]

theorem write_eq_nil_iff : breaks.write s = [] ↔ s = [] := by
  cases s with
  | nil => simp
  | cons c s =>
    by_cases lineFeed : c = '\n'
    · subst lineFeed
      simp [breaks.nonempty]
    · simp [write_cons breaks lineFeed]

theorem isEmpty_write (s : List Char) : (breaks.write s).isEmpty = s.isEmpty := by
  rw [Bool.eq_iff_iff, List.isEmpty_iff, List.isEmpty_iff, write_eq_nil_iff]

theorem write_eq_self (plain : '\n' ∉ s) : breaks.write s = s := by
  induction s with
  | nil => rfl
  | cons c s ih =>
    rw [write_cons breaks fun same => plain (same ▸ List.mem_cons_self),
      ih fun found => plain (List.mem_cons_of_mem c found)]

/-- The line break that a text begins with. -/
theorem exists_break : ∃ c r, breaks.chars = c :: r ∧ (c = '\r' ∨ c = '\n') := by
  obtain ⟨c, r, same⟩ := List.exists_cons_of_ne_nil breaks.nonempty
  exact ⟨c, r, same, breaks.isBreak c (by simp [same])⟩

theorem write_reverse (s : List Char) :
    (breaks.write s).reverse = breaks.reversed.write s.reverse := by
  induction s with
  | nil => rfl
  | cons c s ih =>
    rw [List.reverse_cons, write_append, ← ih]
    by_cases lineFeed : c = '\n'
    · subst lineFeed
      simp [reversed]
    · rw [write_cons breaks lineFeed, write_cons _ lineFeed, List.reverse_cons, write_nil]

/-! ## Characters -/

theorem head?_write (other : c ≠ '\r' ∧ c ≠ '\n') :
    (breaks.write s).head? = some c ↔ s.head? = some c := by
  cases s with
  | nil => rfl
  | cons d s =>
    by_cases lineFeed : d = '\n'
    · subst lineFeed
      obtain ⟨first, others, chars, isBreak⟩ := breaks.exists_break
      have absent : first ≠ c := fun same => isBreak.elim (same ▸ other.1) (same ▸ other.2)
      simp [chars, absent, Ne.symm other.2]
    · simp [write_cons breaks lineFeed]

theorem getLast?_write (other : c ≠ '\r' ∧ c ≠ '\n') :
    (breaks.write s).getLast? = some c ↔ s.getLast? = some c := by
  rw [← List.head?_reverse, ← List.head?_reverse, write_reverse, head?_write _ other]

theorem dropLast_write (last : s.getLast? = some c) (other : c ≠ '\n') :
    (breaks.write s).dropLast = breaks.write s.dropLast := by
  obtain ⟨before, rfl⟩ := List.getLast?_eq_some_iff.1 last
  rw [write_concat breaks other, List.dropLast_concat, List.dropLast_concat]

section Class

variable {p : Char → Bool}

theorem all_write (same : p '\r' = p '\n') (s : List Char) : (breaks.write s).all p = s.all p := by
  induction s with
  | nil => rfl
  | cons c s ih =>
    by_cases lineFeed : c = '\n'
    · subst lineFeed
      have chars : breaks.chars.all p = p '\n' := by
        obtain ⟨first, others, chars, isBreak⟩ := breaks.exists_break
        have alike : ∀ c ∈ breaks.chars, p c = p '\n' := fun c member =>
          (breaks.isBreak c member).elim (· ▸ same) (· ▸ rfl)
        cases lineFeeds : p '\n' with
        | true => exact List.all_eq_true.2 fun c member => (alike c member).trans lineFeeds
        | false =>
          rw [chars, List.all_cons, alike first (by simp [chars]), lineFeeds, Bool.false_and]
      rw [write_lineFeed, List.all_append, chars, ih, List.all_cons]
    · rw [write_cons breaks lineFeed, List.all_cons, ih, List.all_cons]

theorem takeWhile_write (same : p '\r' = p '\n') (s : List Char) :
    (breaks.write s).takeWhile p = breaks.write (s.takeWhile p) := by
  induction s with
  | nil => rfl
  | cons c s ih =>
    by_cases lineFeed : c = '\n'
    · subst lineFeed
      have alike : ∀ c ∈ breaks.chars, p c = p '\n' := fun c member =>
        (breaks.isBreak c member).elim (· ▸ same) (· ▸ rfl)
      cases lineFeeds : p '\n' with
      | true =>
        rw [write_lineFeed, List.takeWhile_append_of_pos fun c member =>
          (alike c member).trans lineFeeds, ih, List.takeWhile_cons_of_pos lineFeeds,
          write_lineFeed]
      | false =>
        obtain ⟨first, others, chars, -⟩ := breaks.exists_break
        have stops : p first = false := (alike first (by simp [chars])).trans lineFeeds
        rw [write_lineFeed, chars, List.cons_append, List.takeWhile_cons_of_neg (by simp [stops]),
          List.takeWhile_cons_of_neg (by simp [lineFeeds]), write_nil]
    · rw [write_cons breaks lineFeed, List.takeWhile_cons, List.takeWhile_cons, ih]
      split
      · rw [write_cons breaks lineFeed]
      · rfl

theorem dropWhile_write (same : p '\r' = p '\n') (s : List Char) :
    (breaks.write s).dropWhile p = breaks.write (s.dropWhile p) := by
  have whole : (breaks.write s).takeWhile p ++ (breaks.write s).dropWhile p =
      breaks.write (s.takeWhile p) ++ breaks.write (s.dropWhile p) := by
    rw [List.takeWhile_append_dropWhile, ← write_append, List.takeWhile_append_dropWhile]
  rw [takeWhile_write breaks same] at whole
  exact List.append_cancel_left whole

end Class

/-! ## Trimming and unquoting -/

theorem allBlank_write (s : List Char) : allBlank (breaks.write s) = allBlank s :=
  breaks.all_write (by decide) s

theorem trimEnd_write (s : List Char) : trimEnd (breaks.write s) = breaks.write (trimEnd s) := by
  rw [trimEnd, write_reverse, dropWhile_write _ (by decide), write_reverse, reversed_reversed,
    trimEnd]

theorem trim_write (s : List Char) : trim (breaks.write s) = breaks.write (trim s) := by
  rw [trim, trimStart, dropWhile_write _ (by decide), trimEnd_write, trim, trimStart]

theorem lastWord_write (s : List Char) : lastWord (breaks.write s) = breaks.write (lastWord s) := by
  rw [lastWord, trimEnd_write, write_reverse, takeWhile_write _ (by decide), write_reverse,
    reversed_reversed, lastWord]

theorem ne_break_of_isQuote {q : Char} (h : isQuote q = true) : q ≠ '\r' ∧ q ≠ '\n' := by
  rcases eq_of_isQuote h with rfl | rfl <;> decide

theorem unquote_write (s : List Char) : unquote (breaks.write s) = breaks.write (unquote s) := by
  cases s with
  | nil => rfl
  | cons q r =>
    by_cases quoted : isQuote q = true
    · have other := ne_break_of_isQuote quoted
      rw [write_cons breaks other.2, unquote, unquote]
      by_cases last : r.getLast? = some q
      · have last' := (breaks.getLast?_write other).2 last
        simp only [quoted, last, last', beq_self_eq_true, Bool.and_self, if_true]
        exact breaks.dropLast_write last other.2
      · have last' : (breaks.write r).getLast? ≠ some q := fun found =>
          last ((breaks.getLast?_write other).1 found)
        rw [if_neg fun both => last' (beq_iff_eq.1 (Bool.and_eq_true_iff.1 both).2),
          if_neg fun both => last (beq_iff_eq.1 (Bool.and_eq_true_iff.1 both).2),
          write_cons breaks other.2]
    · have noQuote : ∀ {d : Char}, isQuote d ≠ true → ∀ r, unquote (d :: r) = d :: r := by
        intro d plain r
        rw [unquote, if_neg (by simp [plain])]
      rw [noQuote quoted]
      by_cases lineFeed : q = '\n'
      · subst lineFeed
        obtain ⟨first, others, chars, isBreak⟩ := breaks.exists_break
        rw [write_lineFeed, chars, List.cons_append]
        exact noQuote (by rcases isBreak with rfl | rfl <;> decide) _
      · rw [write_cons breaks lineFeed, noQuote quoted]

/-! ## Splitting -/

theorem splitOn_append_write {separator : Char} {piece : List Char} {pieces : List (List Char)}
    (before : List Char) (absent : separator ∉ before)
    (split : splitOn separator s = piece :: pieces) :
    splitOn separator (before ++ s) = (before ++ piece) :: pieces := by
  induction before with
  | nil => exact split
  | cons c before ih =>
    have other : ¬ (c == separator) = true := fun same =>
      absent (beq_iff_eq.1 same ▸ List.mem_cons_self)
    rw [List.cons_append, splitOn, if_neg other,
      ih fun found => absent (List.mem_cons_of_mem c found)]
    rfl

theorem splitOn_write {separator : Char} (other : separator ≠ '\r' ∧ separator ≠ '\n')
    (s : List Char) :
    splitOn separator (breaks.write s) = (splitOn separator s).map breaks.write := by
  induction s with
  | nil => rfl
  | cons c s ih =>
    obtain ⟨piece, pieces, split⟩ := List.exists_cons_of_ne_nil (splitOn_ne_nil separator s)
    rw [split, List.map_cons] at ih
    by_cases lineFeed : c = '\n'
    · subst lineFeed
      have absent : separator ∉ breaks.chars := fun member =>
        (breaks.isBreak separator member).elim other.1 other.2
      have goesOn : ¬ ('\n' == separator) = true := by simpa using Ne.symm other.2
      rw [write_lineFeed, splitOn_append_write _ absent ih, splitOn, if_neg goesOn, split,
        List.map_cons, write_lineFeed]
    · rw [write_cons breaks lineFeed, splitOn, splitOn, ih, split]
      split
      · rfl
      · rw [List.map_cons, write_cons breaks lineFeed]

theorem cut?_write {separator : Char} (other : separator ≠ '\r' ∧ separator ≠ '\n')
    (s : List Char) :
    cut? separator (breaks.write s) =
      (cut? separator s).map fun parts => (breaks.write parts.1, breaks.write parts.2) := by
  induction s with
  | nil => rfl
  | cons c s ih =>
    by_cases lineFeed : c = '\n'
    · subst lineFeed
      have before : ∀ chars : List Char, separator ∉ chars →
          cut? separator (chars ++ breaks.write s) =
            (cut? separator s).map fun parts =>
              (chars ++ breaks.write parts.1, breaks.write parts.2) := by
        intro chars absent
        induction chars with
        | nil => exact ih
        | cons d chars inner =>
          have goesOn : ¬ (d == separator) = true := fun same =>
            absent (beq_iff_eq.1 same ▸ List.mem_cons_self)
          rw [List.cons_append, cut?, if_neg goesOn,
            inner fun found => absent (List.mem_cons_of_mem d found), Option.map_map]
          rfl
      have goesOn : ¬ ('\n' == separator) = true := by simpa using Ne.symm other.2
      rw [write_lineFeed, before _ fun member =>
        (breaks.isBreak separator member).elim other.1 other.2, cut?, if_neg goesOn, Option.map_map]
      rfl
    · rw [write_cons breaks lineFeed, cut?, cut?]
      split
      · rfl
      · rw [ih, Option.map_map, Option.map_map]
        exact congrArg (fun f => Option.map f (cut? separator s))
          (funext fun parts => by simp [write_cons breaks lineFeed])

/-- A text that begins with a word without line breaks goes on behind it. -/
theorem after?_write {start : List Char} (plain : '\r' ∉ start ∧ '\n' ∉ start) (s : List Char) :
    after? start (breaks.write s) = (after? start s).map breaks.write := by
  induction start generalizing s with
  | nil => rfl
  | cons p start ih =>
    have inner := ih ⟨fun found => plain.1 (List.mem_cons_of_mem p found),
      fun found => plain.2 (List.mem_cons_of_mem p found)⟩
    have first : p ≠ '\r' ∧ p ≠ '\n' :=
      ⟨fun same => plain.1 (same ▸ List.mem_cons_self),
        fun same => plain.2 (same ▸ List.mem_cons_self)⟩
    cases s with
    | nil => rfl
    | cons c s =>
      by_cases lineFeed : c = '\n'
      · subst lineFeed
        obtain ⟨d, others, chars, isBreak⟩ := breaks.exists_break
        have stops : ¬ (p == d) = true := by
          rcases isBreak with rfl | rfl <;> simp [first.1, first.2]
        rw [write_lineFeed, chars, List.cons_append, after?, if_neg stops, after?,
          if_neg (by simpa using first.2)]
        rfl
      · rw [write_cons breaks lineFeed, after?, after?]
        split
        · exact inner s
        · rfl

/-! ## Strings -/

/-- The text of a document with its line feeds written in this way. -/
def text (breaks : Breaks) (s : String) : String := String.ofList (breaks.write s.toList)

@[simp] theorem text_empty : breaks.text "" = "" := rfl

theorem text_ofList (s : List Char) :
    breaks.text (String.ofList s) = String.ofList (breaks.write s) := by
  rw [text, String.toList_ofList]

theorem toList_text (s : String) : (breaks.text s).toList = breaks.write s.toList :=
  String.toList_ofList

theorem text_append (s t : String) : breaks.text (s ++ t) = breaks.text s ++ breaks.text t := by
  apply String.ext
  simp only [toList_text, String.toList_append, write_append]

theorem text_push (s : String) (other : c ≠ '\n') :
    breaks.text (s.push c) = (breaks.text s).push c := by
  apply String.ext
  simp only [toList_text, String.toList_push, write_concat breaks other]

theorem text_eq_empty_iff {s : String} : breaks.text s = "" ↔ s = "" := by
  rw [← String.toList_inj, toList_text, String.toList_empty, write_eq_nil_iff,
    String.toList_eq_nil_iff]

theorem text_eq_self {s : String} (plain : '\n' ∉ s.toList) : breaks.text s = s := by
  rw [text, write_eq_self breaks plain, String.ofList_toList]

end Breaks

/-! ## Carriage returns before line feeds, and repeated line feeds -/

def Breaks.crlf : Breaks := ⟨['\r', '\n'], by simp, by simp⟩

def Breaks.twice : Breaks := ⟨['\n', '\n'], by simp, by simp⟩

/-- The text with a carriage return before every line feed. -/
def crlf (s : List Char) : List Char := Breaks.crlf.write s

/-- The text with every line feed repeated. -/
def doubled (s : List Char) : List Char := Breaks.twice.write s

theorem length_lt_length_write {breaks : Breaks} (longer : 2 ≤ breaks.chars.length) {s : List Char}
    (found : '\n' ∈ s) : s.length < (breaks.write s).length := by
  have atLeast : ∀ s : List Char, s.length ≤ (breaks.write s).length := by
    intro s
    induction s with
    | nil => exact Nat.le_refl 0
    | cons c s ih =>
      by_cases lineFeed : c = '\n'
      · subst lineFeed
        rw [Breaks.write_lineFeed, List.length_append, List.length_cons]
        omega
      · rw [breaks.write_cons lineFeed]
        exact Nat.succ_le_succ ih
  obtain ⟨before, behind, rfl⟩ := List.append_of_mem found
  rw [breaks.write_append, Breaks.write_lineFeed]
  simp only [List.length_append, List.length_cons]
  have := atLeast before
  have := atLeast behind
  omega

/-- Only a text without line feeds stays the same. -/
theorem write_eq_self_iff {breaks : Breaks} (longer : 2 ≤ breaks.chars.length) {s : List Char} :
    breaks.write s = s ↔ '\n' ∉ s := by
  constructor
  · intro same found
    have := length_lt_length_write longer found
    rw [same] at this
    exact absurd this (Nat.lt_irrefl _)
  · exact breaks.write_eq_self

theorem text_eq_self_iff {breaks : Breaks} (longer : 2 ≤ breaks.chars.length) {s : String} :
    breaks.text s = s ↔ '\n' ∉ s.toList := by
  rw [← String.toList_inj, breaks.toList_text, write_eq_self_iff longer]

theorem crlf_injective : Function.Injective crlf := by
  have start : ∀ s t : List Char, crlf s ≠ '\n' :: t := by
    intro s t same
    cases s with
    | nil => cases same
    | cons c s =>
      by_cases lineFeed : c = '\n'
      · subst lineFeed
        cases same
      · rw [crlf, Breaks.crlf.write_cons lineFeed] at same
        exact lineFeed (List.cons.inj same).1
  intro s t same
  induction s generalizing t with
  | nil => exact ((Breaks.crlf.write_eq_nil_iff).1 same.symm).symm
  | cons c s ih =>
    cases t with
    | nil => exact (Breaks.crlf.write_eq_nil_iff).1 same
    | cons d t =>
      by_cases first : c = '\n'
      · subst first
        by_cases second : d = '\n'
        · subst second
          exact congrArg _ (ih (List.cons.inj (List.cons.inj same).2).2)
        · rw [crlf, crlf, Breaks.crlf.write_cons second] at same
          exact absurd (List.cons.inj same).2.symm (start t _)
      · rw [crlf, Breaks.crlf.write_cons first] at same
        by_cases second : d = '\n'
        · subst second
          exact absurd (List.cons.inj same).2 (start s _)
        · rw [crlf, Breaks.crlf.write_cons second] at same
          obtain ⟨rfl, behind⟩ := List.cons.inj same
          exact congrArg _ (ih behind)

theorem crlfText_injective : Function.Injective Breaks.crlf.text := by
  intro s t same
  have inner := congrArg String.toList same
  rw [Breaks.toList_text, Breaks.toList_text] at inner
  exact String.toList_inj.1 (crlf_injective inner)

theorem crlfText_ofList (s : List Char) :
    Breaks.crlf.text (String.ofList s) = String.ofList (crlf s) := Breaks.crlf.text_ofList s

/-- A text is a word without line feeds only if it is that word before. -/
theorem crlfText_eq_iff {s word : String} (plain : '\n' ∉ word.toList) :
    Breaks.crlf.text s = word ↔ s = word := by
  constructor
  · intro same
    rw [← Breaks.crlf.text_eq_self plain] at same
    exact crlfText_injective same
  · rintro rfl
    exact Breaks.crlf.text_eq_self plain

end BuildScript
