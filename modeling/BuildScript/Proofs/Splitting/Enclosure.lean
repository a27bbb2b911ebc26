import BuildScript.Dependency.Statement
import BuildScript.Proofs.Text

/-!
# Enclosures

What is open at a place of a text: brackets, which count together whatever their kind, and perhaps a
quote.  A text is taken apart into statements and arguments where nothing is open, and all that is
lost there are blank characters.
-/

namespace BuildScript.Splitting

open Text Unicode

/-! ## Brackets and quotes -/

def isOpening (c : Char) : Bool := c == '(' || c == '[' || c == '{'

def isClosing (c : Char) : Bool := c == ')' || c == ']' || c == '}'

structure Enclosure where
  /-- How many brackets are open. -/
  depth : Nat
  quote : Option Char
deriving DecidableEq

namespace Enclosure

/-- Nothing is open. -/
def outside : Enclosure := ⟨0, none⟩

/-- A quote is open until the same quote comes, and brackets in it do not count.  A closing bracket
closes an opening one of any kind, if one is open. -/
def after (e : Enclosure) (c : Char) : Enclosure :=
  match e.quote with
  | some q => if c = q then { e with quote := none } else e
  | none =>
    if isQuote c then { e with quote := some c }
    else if isOpening c then { e with depth := e.depth + 1 }
    else if isClosing c then { e with depth := e.depth - 1 }
    else e

/-- Where a text runs over several lines, a line break ends a quote as well. -/
def afterInLines (e : Enclosure) (c : Char) : Enclosure :=
  if isLineBreak c then { e with quote := none } else e.after c

/-- What a scanner of statements or arguments keeps in its depth and its quote is the enclosure. -/
theorem after_eq (e : Enclosure) (c : Char) :
    e.after c =
      ⟨if inLiteral e.quote c then e.depth
        else if isOpening c then e.depth + 1
        else if isClosing c then e.depth - 1
        else e.depth, quoteAfter e.quote c⟩ := by
  obtain ⟨depth, quote⟩ := e
  cases quote with
  | some q =>
    simp only [after, inLiteral, quoteAfter, Option.isSome_some, Bool.true_or, if_true,
      beq_iff_eq]
    split <;> rfl
  | none =>
    simp only [after, inLiteral, quoteAfter, Option.isSome_none, Bool.false_or]
    split
    · rfl
    · split
      · rfl
      · split <;> rfl

theorem afterInLines_lineBreak {c : Char} (h : isLineBreak c = true) (e : Enclosure) :
    e.afterInLines c = ⟨e.depth, none⟩ :=
  if_pos h

theorem eq_outside_iff {e : Enclosure} : e = outside ↔ e.depth = 0 ∧ e.quote = none := by
  obtain ⟨depth, quote⟩ := e
  simp [outside]

end Enclosure

section NoneOutside

variable {next : Enclosure → Char → Enclosure} {mark c : Char} {e : Enclosure} {s : List Char}

/-- Wherever the mark stands in the text, something is open there. -/
def NoneOutside (next : Enclosure → Char → Enclosure) (mark : Char) (e : Enclosure)
    (s : List Char) : Prop :=
  ∀ before behind, s = before ++ mark :: behind → before.foldl next e ≠ .outside

theorem noneOutside_nil : NoneOutside next mark e [] := by
  intro before behind found
  cases before <;> cases found

theorem noneOutside_cons_iff :
    NoneOutside next mark e (c :: s) ↔
      ¬ (c = mark ∧ e = .outside) ∧ NoneOutside next mark (next e c) s := by
  constructor
  · intro whole
    refine ⟨?_, ?_⟩
    · rintro ⟨rfl, outside⟩
      exact whole [] s rfl outside
    · rintro before behind rfl
      exact whole (c :: before) behind rfl
  · rintro ⟨inside, later⟩ before behind found
    cases before with
    | nil => exact fun outside => inside ⟨(List.cons.inj found).1, outside⟩
    | cons d before =>
      obtain ⟨rfl, rest⟩ := List.cons.inj found
      exact later before behind rest

instance decidableNoneOutside (next : Enclosure → Char → Enclosure) (mark : Char) (e : Enclosure) :
    (s : List Char) → Decidable (NoneOutside next mark e s)
  | [] => .isTrue noneOutside_nil
  | c :: s =>
    have := decidableNoneOutside next mark (next e c) s
    decidable_of_iff _ noneOutside_cons_iff.symm

end NoneOutside

/-! ## Blank characters -/

/-- The text without its blank characters. -/
def visible (s : List Char) : List Char := s.filter fun c => !isBlank c

@[simp] theorem visible_append (s t : List Char) : visible (s ++ t) = visible s ++ visible t :=
  List.filter_append ..

theorem visible_cons (c : Char) (s : List Char) : visible (c :: s) = visible [c] ++ visible s :=
  visible_append [c] s

theorem visible_singleton {c : Char} (blank : isBlank c = true) : visible [c] = [] := by
  simp [visible, blank]

theorem visible_dropWhile {p : Char → Bool} (blank : ∀ c, p c = true → isBlank c = true)
    (s : List Char) : visible (s.dropWhile p) = visible s := by
  induction s with
  | nil => rfl
  | cons c s ih =>
    rw [List.dropWhile_cons]
    split
    · next dropped => rw [ih, visible_cons c s, visible_singleton (blank c dropped), List.nil_append]
    · rfl

theorem visible_reverse (s : List Char) : visible s.reverse = (visible s).reverse :=
  List.filter_reverse ..

theorem visible_trim (s : List Char) : visible (trim s) = visible s := by
  rw [trim, trimEnd, visible_reverse, visible_dropWhile (fun _ blank => blank), visible_reverse,
    List.reverse_reverse, trimStart, visible_dropWhile (fun _ blank => blank)]

theorem visible_flatMap {α : Type} (text : α → List Char) (parts : List α) :
    visible (parts.flatMap text) = parts.flatMap fun part => visible (text part) :=
  List.filter_flatMap ..

/-- The blanks around parts do not show in what the parts are joined to. -/
theorem visible_joined_map_trim (separator : List Char) (parts : List (List Char)) :
    visible (joined separator (parts.map trim)) = visible (joined separator parts) := by
  cases parts with
  | nil => rfl
  | cons first others =>
    simp only [List.map_cons, joined_eq_append_flatMap, List.flatMap_map, visible_append,
      visible_flatMap, visible_trim]

theorem eq_false_of_mem_head?_dropWhile {p : Char → Bool} {s : List Char} {c : Char}
    (first : c ∈ (s.dropWhile p).head?) : p c = false := by
  have := List.head?_dropWhile_not p s
  rw [Option.mem_def.1 first] at this
  exact this

/-- What is left of a text when the blanks around it are gone begins and ends with no blank. -/
theorem isTrimmed_trim (s : List Char) : IsTrimmed (trim s) := by
  constructor
  · intro c first
    have start : trim s <+: trimStart s := by
      rw [trim, trimEnd, ← List.reverse_suffix, List.reverse_reverse]
      exact List.dropWhile_suffix _
    obtain ⟨behind, whole⟩ := start
    have same : c ∈ (trimStart s).head? := by
      rw [← whole, List.head?_append, Option.mem_def.1 first]
      rfl
    exact eq_false_of_mem_head?_dropWhile same
  · intro c last
    rw [trim, trimEnd, List.getLast?_reverse] at last
    exact eq_false_of_mem_head?_dropWhile last

end BuildScript.Splitting
