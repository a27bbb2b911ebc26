import Mathlib.Data.List.Forall2
import BuildScript.Proofs.Text

/-!
# Repeated line feeds

A text with some of its line feeds repeated is taken apart in the same places, and its parts are
those of the text itself with some of their line feeds repeated.  A part without line feeds is the
same.
-/

namespace BuildScript

open Text Unicode

/-- The second text is the first one with line feeds repeated. -/
inductive Padded : List Char → List Char → Prop where
  | nil : Padded [] []
  | cons (c : Char) {s s' : List Char} (h : Padded s s') : Padded (c :: s) (c :: s')
  | again {s s' : List Char} (h : Padded s ('\n' :: s')) : Padded s ('\n' :: '\n' :: s')

namespace Padded

variable {a b s s' t t' : List Char}

theorem refl (s : List Char) : Padded s s := by
  induction s with
  | nil => exact nil
  | cons c s ih => exact cons c ih

theorem append (h : Padded s s') (h' : Padded t t') : Padded (s ++ t) (s' ++ t') := by
  induction h with
  | nil => exact h'
  | cons c _ ih => exact cons c ih
  | again _ ih => exact again ih

theorem head?_eq (h : Padded s s') : s'.head? = s.head? := by
  induction h with
  | nil => rfl
  | cons c _ _ => rfl
  | again _ ih => exact ih

/-- A line feed that is repeated is there. -/
theorem exists_lineFeed (h : Padded s ('\n' :: s')) : ∃ t, s = '\n' :: t :=
  List.head?_eq_some_iff.1 h.head?_eq.symm

theorem trans (h : Padded a b) (h' : Padded b s) : Padded a s := by
  induction h' generalizing a with
  | nil => exact h
  | @cons c b s below ih =>
    cases h with
    | cons _ h => exact cons c (ih h)
    | @again _ b' h =>
      obtain ⟨s', rfl⟩ := List.head?_eq_some_iff.1 below.head?_eq
      exact again (ih h)
  | again _ ih => exact again (ih h)

theorem reverse (h : Padded s s') : Padded s.reverse s'.reverse := by
  induction h with
  | nil => exact nil
  | cons c _ ih =>
    rw [List.reverse_cons, List.reverse_cons]
    exact ih.append (refl [c])
  | @again s s' _ ih =>
    rw [List.reverse_cons] at ih ⊢
    rw [List.reverse_cons, List.append_assoc]
    exact ih.trans ((refl _).append (again (refl ['\n'])))

/-- Only a text with line feeds changes. -/
theorem eq_of_not_mem (h : Padded s s') (plain : '\n' ∉ s) : s' = s := by
  induction h with
  | nil => rfl
  | cons c _ ih => rw [ih fun found => plain (List.mem_cons_of_mem c found)]
  | again h _ =>
    obtain ⟨t, rfl⟩ := h.exists_lineFeed
    exact absurd (List.mem_cons_self) plain

theorem mem_iff (h : Padded s s') (c : Char) : c ∈ s' ↔ c ∈ s := by
  induction h with
  | nil => rfl
  | cons d _ ih => simp [ih]
  | again _ ih =>
    rw [← ih]
    simp

theorem all_eq (h : Padded s s') (p : Char → Bool) : s'.all p = s.all p := by
  induction h with
  | nil => rfl
  | cons c _ ih => simp [ih]
  | again _ ih =>
    rw [← ih]
    simp

theorem isEmpty_eq (h : Padded s s') : s'.isEmpty = s.isEmpty := by
  induction h with
  | nil => rfl
  | cons c _ _ => rfl
  | again _ ih => exact ih

theorem getLast?_eq (h : Padded s s') : s'.getLast? = s.getLast? := by
  rw [← List.head?_reverse, ← List.head?_reverse, h.reverse.head?_eq]

theorem takeWhile (h : Padded s s') (p : Char → Bool) :
    Padded (s.takeWhile p) (s'.takeWhile p) := by
  induction h with
  | nil => exact nil
  | cons c _ ih =>
    simp only [List.takeWhile_cons]
    split
    · exact cons c ih
    · exact nil
  | again _ ih =>
    simp only [List.takeWhile_cons] at ih ⊢
    split
    · next member =>
      rw [if_pos member] at ih
      exact again ih
    · next other =>
      rwa [if_neg other] at ih

theorem dropWhile (h : Padded s s') (p : Char → Bool) :
    Padded (s.dropWhile p) (s'.dropWhile p) := by
  induction h with
  | nil => exact nil
  | cons c h ih =>
    simp only [List.dropWhile_cons]
    split
    · exact ih
    · exact cons c h
  | again _ ih =>
    simp only [List.dropWhile_cons] at ih ⊢
    split
    · next member => rwa [if_pos member] at ih
    · next other =>
      rw [if_neg other] at ih
      exact again ih

/-- A text of characters of a class without line feeds is the same at the start of both. -/
theorem takeWhile_eq (h : Padded s s') {p : Char → Bool} (plain : p '\n' = false) :
    s'.takeWhile p = s.takeWhile p := by
  refine (h.takeWhile p).eq_of_not_mem fun found => ?_
  have := List.all_eq_true.1 List.all_takeWhile '\n' found
  rw [plain] at this
  cases this

theorem trim (h : Padded s s') : Padded (trim s) (trim s') :=
  ((h.dropWhile isBlank).reverse.dropWhile isBlank).reverse

theorem trimEnd (h : Padded s s') : Padded (trimEnd s) (trimEnd s') :=
  (h.reverse.dropWhile isBlank).reverse

/-- A last character other than a line feed is the last one of both. -/
theorem dropLast (h : Padded s s') {c : Char} (last : s.getLast? = some c) (plain : c ≠ '\n') :
    Padded s.dropLast s'.dropLast := by
  have backward := h.reverse
  have first : s.reverse.head? = some c := by rw [List.head?_reverse, last]
  obtain ⟨r, same⟩ := List.head?_eq_some_iff.1 first
  rw [same] at backward
  have inner : ∃ r', s'.reverse = c :: r' ∧ Padded r r' := by
    generalize s'.reverse = u at backward
    cases backward with
    | cons _ h => exact ⟨_, rfl, h⟩
    | again h => exact absurd (by simpa using h.head?_eq.symm) plain
  obtain ⟨r', same', behind⟩ := inner
  have text : ∀ {s r : List Char}, s.reverse = c :: r → s.dropLast = r.reverse := by
    intro s r same
    rw [← List.reverse_reverse s, same, List.reverse_cons, List.dropLast_concat]
  rw [text same, text same']
  exact behind.reverse

theorem unquote (h : Padded s s') : Padded (unquote s) (unquote s') := by
  cases h with
  | nil => exact nil
  | @cons c s s' h =>
    simp only [Text.unquote, h.getLast?_eq]
    split
    · next quoted =>
      obtain ⟨quote, last⟩ : isQuote c = true ∧ s.getLast? = some c := by simpa using quoted
      exact h.dropLast last (by rintro rfl; cases quote)
    · exact cons c h
  | @again s s' h =>
    obtain ⟨t, rfl⟩ := h.exists_lineFeed
    exact again h

/-- A text that begins with a word without line feeds goes on with padding behind it. -/
theorem after? (h : Padded s s') {start : List Char} (plain : '\n' ∉ start) :
    Option.Rel Padded (after? start s) (after? start s') := by
  induction start generalizing s s' with
  | nil => exact .some h
  | cons p start ih =>
    have other : ('\n' == p) = false := by
      simp only [beq_eq_false_iff_ne]
      exact fun same => plain (same ▸ List.mem_cons_self)
    cases h with
    | nil => exact .none
    | cons c h =>
      simp only [Text.after?]
      split
      · exact ih h fun found => plain (List.mem_cons_of_mem p found)
      · exact .none
    | again h =>
      obtain ⟨t, rfl⟩ := h.exists_lineFeed
      have none : ∀ u, Text.after? (p :: start) ('\n' :: u) = none := by
        intro u
        rw [Text.after?, if_neg]
        rw [BEq.comm, other]
        exact Bool.false_ne_true
      rw [none, none]
      exact .none

end Padded

end BuildScript
