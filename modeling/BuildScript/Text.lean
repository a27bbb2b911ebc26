import BuildScript.Unicode.Class

/-!
# Text

Trimming, unquoting and splitting of text that is held as a list of characters.  Blank characters
are those of property White_Space.
-/

namespace BuildScript.Text

open Unicode

/-! ## Trimming -/

/-- The text from its first character that is not blank. -/
def trimStart (s : List Char) : List Char := s.dropWhile isBlank

/-- The text up to its last character that is not blank. -/
def trimEnd (s : List Char) : List Char := (s.reverse.dropWhile isBlank).reverse

/-- The text without the blank characters around it. -/
def trim (s : List Char) : List Char := trimEnd (trimStart s)

/-- Nothing but blank characters. -/
def allBlank (s : List Char) : Bool := s.all isBlank

/-! ## Quotes -/

def isQuote (c : Char) : Bool := c == '"' || c == '\''

theorem eq_of_isQuote {c : Char} (h : isQuote c = true) : c = '"' ∨ c = '\'' := by
  simpa [isQuote] using h

/-- One pair of equal quotes around the text is removed; any other text stays as it is. -/
def unquote : List Char → List Char
  | [] => []
  | q :: r => if isQuote q && r.getLast? == some q then r.dropLast else q :: r

/-! ## Splitting -/

/-- The pieces between the separators: one more than there are separators. -/
def splitOn (separator : Char) : List Char → List (List Char)
  | [] => [[]]
  | c :: r =>
    if c == separator then [] :: splitOn separator r
    else match splitOn separator r with
      | [] => [[c]]
      | piece :: pieces => (c :: piece) :: pieces

theorem splitOn_ne_nil (separator : Char) (s : List Char) : splitOn separator s ≠ [] := by
  fun_induction splitOn separator s <;> simp

/-- The text before and after the first separator. -/
def cut? (separator : Char) : List Char → Option (List Char × List Char)
  | [] => none
  | c :: r =>
    if c == separator then some ([], r)
    else (cut? separator r).map fun (before, after) => (c :: before, after)

/-- The lines of the text, each without the line feed that ends it and a carriage return before
that.  Text after the last line feed is a line unless it is empty. -/
def lines (s : List Char) : List (List Char) :=
  let pieces := splitOn '\n' s
  let ended := pieces.dropLast.map fun line =>
    if line.getLast? == some '\r' then line.dropLast else line
  match pieces.getLast? with
  | none | some [] => ended
  | some last => ended ++ [last]

/-- The last of the words that blank characters separate; empty if there is none. -/
def lastWord (s : List Char) : List Char :=
  ((trimEnd s).reverse.takeWhile fun c => !isBlank c).reverse

/-- Parts with a separator between them. -/
def joined (separator : List Char) (parts : List (List Char)) : List Char :=
  (parts.intersperse separator).flatten

theorem joined_cons (separator part : List Char) {parts : List (List Char)} (h : parts ≠ []) :
    joined separator (part :: parts) = part ++ separator ++ joined separator parts := by
  obtain ⟨next, others, rfl⟩ := List.exists_cons_of_ne_nil h
  simp [joined]

/-- The rest of a text that begins with the given one. -/
def after? : List Char → List Char → Option (List Char)
  | [], s => some s
  | _ :: _, [] => none
  | p :: ps, c :: s => if p == c then after? ps s else none

theorem after?_eq_some_iff {start s rest : List Char} :
    after? start s = some rest ↔ s = start ++ rest := by
  fun_induction after? start s with
  | case1 => simp
  | case2 => simp
  | case3 p ps c s same ih => simp_all
  | case4 p ps c s other => simp only [beq_iff_eq] at other; simp [Ne.symm other]

end BuildScript.Text
