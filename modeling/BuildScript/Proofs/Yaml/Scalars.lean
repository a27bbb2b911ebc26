import BuildScript.Format.Yaml
import BuildScript.Proofs.Escapes

/-!
# Scalars of YAML

Where two scalars are written and the texts agree from there on, the scalars are the same one and
what follows them is the same.  For a literal block this needs a condition on what follows: its
first line stands further to the left.
-/

namespace BuildScript.Yaml

open Escape (scalar? scalar?_padded)

/-! ## First characters -/

/-- What the first characters of a text announce. -/
inductive Opening where
  | blank
  | single
  | double
  | literal
  | item
  | longKey
  | word
  deriving DecidableEq

def opening : List Char → Opening
  | '\'' :: _ => .single
  | '"' :: _ => .double
  | '|' :: _ => .literal
  | '-' :: ' ' :: _ => .item
  | '?' :: ' ' :: _ => .longKey
  | c :: _ => if isSpaceOrBreak c then .blank else .word
  | [] => .blank

/-- The text begins with fewer spaces than the indentation has, if it is not at its end. -/
def Dedent (n : Nat) (s : List Char) : Prop :=
  s = [] ∨ ∃ m < n, ∃ rest, s = indent m ++ rest ∧ opening rest ≠ .blank

/-- The text begins with an item of a sequence at the indentation. -/
def Item (n : Nat) (s : List Char) : Prop := ∃ rest, s = indent n ++ rest ∧ opening rest = .item

theorem Dedent.nil (n : Nat) : Dedent n [] := .inl rfl

theorem Dedent.mono {m n : Nat} {s : List Char} (h : Dedent m s) (le : m ≤ n) : Dedent n s := by
  rcases h with rfl | ⟨k, less, rest, same, shown⟩
  · exact .nil n
  · exact .inr ⟨k, Nat.lt_of_lt_of_le less le, rest, same, shown⟩

theorem dedent_indent {m n : Nat} (less : m < n) {s : List Char} (shown : opening s ≠ .blank) :
    Dedent n (indent m ++ s) := .inr ⟨m, less, s, rfl, shown⟩

theorem not_blank {s : List Char} (h : opening s ≠ .blank) :
    ∃ c rest, s = c :: rest ∧ c ≠ ' ' ∧ isBreak c = false := by
  unfold opening at h
  split at h
  all_goals try exact ⟨_, _, rfl, by decide, by decide⟩
  · next c rest _ _ _ _ _ =>
    split at h
    · exact absurd rfl h
    · next shown =>
      obtain ⟨space, goesOn⟩ : c ≠ ' ' ∧ isBreak c = false := by simpa [isSpaceOrBreak] using shown
      exact ⟨c, rest, rfl, space, goesOn⟩
  · exact absurd rfl h

/-- Two lines with the same text have the same indentation. -/
theorem indent_append_inj {m n : Nat} {s t : List Char} (hs : opening s ≠ .blank)
    (ht : opening t ≠ .blank) (same : indent m ++ s = indent n ++ t) : m = n ∧ s = t := by
  obtain ⟨c, s, rfl, noSpace, -⟩ := not_blank hs
  obtain ⟨d, t, rfl, noSpace', -⟩ := not_blank ht
  clear hs ht
  induction m generalizing n with
  | zero =>
    cases n with
    | zero => exact ⟨rfl, same⟩
    | succ n => exact absurd (List.cons.inj same).1 noSpace
  | succ m ih =>
    cases n with
    | zero => exact absurd (List.cons.inj same).1.symm noSpace'
    | succ n =>
      obtain ⟨rfl, rest⟩ := ih (List.cons.inj same).2
      exact ⟨rfl, rest⟩

/-- A text that stands at the indentation or deeper is no dedented one. -/
theorem not_dedent_indent (n : Nat) (c : Char) (s : List Char) :
    ¬ Dedent n (indent n ++ c :: s) := by
  rintro (nothing | ⟨m, less, rest, same, shown⟩)
  · simp at nothing
  · obtain ⟨k, rfl⟩ : ∃ k, n = m + (k + 1) := ⟨n - m - 1, by omega⟩
    obtain ⟨d, rest, rfl, noSpace, -⟩ := not_blank shown
    rw [indent, ← List.replicate_append_replicate, List.append_assoc] at same
    exact noSpace (List.cons.inj (List.append_cancel_left same)).1.symm

theorem Dedent.not_item {n : Nat} {s : List Char} (h : Dedent n s) : ¬ Item n s := by
  rintro ⟨rest, rfl, item⟩
  have shown : opening rest ≠ .blank := by simp [item]
  obtain ⟨c, rest, rfl, -, -⟩ := not_blank shown
  exact not_dedent_indent n c rest h

/-- No dedented text begins with a break. -/
theorem Dedent.not_break {n : Nat} {c : Char} {s : List Char} (h : Dedent n (c :: s)) :
    isBreak c = false := by
  rcases h with nothing | ⟨m, -, rest, same, shown⟩
  · cases nothing
  · cases m with
    | zero =>
      obtain ⟨d, rest, rfl, -, goesOn⟩ := not_blank shown
      cases same
      exact goesOn
    | succ m =>
      cases same
      rfl

/-! ## Indented lines -/

/-- What stands before a character that does not end a line. -/
def pad (n : Nat) (atStart : Bool) : List Char := if atStart then indent n else []

/-- A character with the indentation before it. -/
def piece (n : Nat) (write : Char → List Char) (atStart : Bool) (c : Char) : List Char :=
  if isBreak c then [c] else pad n atStart ++ write c

/-- Whether a line begins behind the text. -/
def atStartBehind (atStart : Bool) (s : List Char) : Bool := s.foldl (fun _ c => isBreak c) atStart

theorem atStartBehind_false (s : List Char) : atStartBehind false s = s.getLast?.any isBreak := by
  rcases List.eq_nil_or_concat s with rfl | ⟨s, c, rfl⟩
  · rfl
  · simp [atStartBehind]

/-- The first character of a line that goes on is no break. -/
theorem not_break_pad {n : Nat} {atStart : Bool} {c d : Char} {s t : List Char}
    (goesOn : isBreak c = false) (same : pad n atStart ++ c :: s = d :: t) : isBreak d = false := by
  cases atStart with
  | false =>
    cases same
    exact goesOn
  | true =>
    cases n with
    | zero =>
      cases same
      exact goesOn
    | succ n =>
      cases same
      rfl

section

variable {n : Nat} {write : Char → List Char}

theorem indented_cons (n : Nat) (write : Char → List Char) (atStart : Bool) (c : Char)
    (s : List Char) :
    indented n write atStart (c :: s) =
      piece n write atStart c ++ indented n write (isBreak c) s := by
  cases ends : isBreak c <;> simp [indented, piece, pad, ends]

theorem indented_of_no_break {s : List Char} (h : ∀ c ∈ s, isBreak c = false) :
    indented n write false s = s.flatMap write := by
  induction s with
  | nil => rfl
  | cons c s ih =>
    obtain ⟨goesOn, others⟩ := List.forall_mem_cons.1 h
    rw [indented_cons, piece, goesOn, ih others]
    rfl

variable (begins : ∀ c, ∃ e, write c = c :: e)
include begins

theorem piece_append_inj {atStart : Bool} {c d : Char} {s t : List Char}
    (same : piece n write atStart c ++ s = piece n write atStart d ++ t) : c = d ∧ s = t := by
  obtain ⟨e, first⟩ := begins c
  obtain ⟨e', second⟩ := begins d
  simp only [piece, first, second] at same
  cases ends : isBreak c <;> cases ends' : isBreak d <;>
    simp only [ends, ends', if_true, if_false, Bool.false_eq_true, List.append_assoc] at same
  · have inner := List.append_cancel_left same
    obtain ⟨rfl, -⟩ := List.cons.inj inner
    cases first.symm.trans second
    exact ⟨rfl, List.append_cancel_left inner⟩
  · cases ends'.symm.trans (not_break_pad ends same)
  · cases ends.symm.trans (not_break_pad ends' same.symm)
  · exact List.cons.inj same

/-- Indented lines can be read off from a text if what ends them begins like none of their
characters. -/
theorem indented_append_inj {Ends : Bool → List Char → Prop}
    (stop : ∀ atStart c s, ¬ Ends atStart (piece n write atStart c ++ s)) {atStart : Bool}
    {s t r r' : List Char} (hs : Ends (atStartBehind atStart s) r)
    (ht : Ends (atStartBehind atStart t) r')
    (same : indented n write atStart s ++ r = indented n write atStart t ++ r') :
    s = t ∧ r = r' := by
  induction s generalizing atStart t with
  | nil =>
    cases t with
    | nil => exact ⟨rfl, same⟩
    | cons d t =>
      rw [indented_cons, List.append_assoc] at same
      rw [show r = _ from same] at hs
      exact absurd hs (stop atStart d _)
  | cons c s ih =>
    cases t with
    | nil =>
      rw [indented_cons, List.append_assoc] at same
      rw [show r' = _ from same.symm] at ht
      exact absurd ht (stop atStart c _)
    | cons d t =>
      rw [indented_cons, indented_cons, List.append_assoc, List.append_assoc] at same
      obtain ⟨rfl, rest⟩ := piece_append_inj begins same
      obtain ⟨rfl, rfl⟩ := ih hs ht rest
      exact ⟨rfl, rfl⟩

end

/-! ## Single quotes -/

/-- A character in single quotes. -/
def quoted (c : Char) : List Char := if c == '\'' then ['\'', '\''] else [c]

theorem quoted_cons (c : Char) : ∃ e, quoted c = c :: e := by
  by_cases quote : c = '\''
  · exact ⟨['\''], by rw [quote]; rfl⟩
  · exact ⟨[], by simp [quoted, quote]⟩

/-- The end of a text in single quotes, with what follows it. -/
def Closes (n : Nat) (atStart : Bool) (s : List Char) : Prop :=
  ∃ rest, (∀ c ∈ rest.head?, c ≠ '\'') ∧ s = pad n atStart ++ '\'' :: rest

theorem not_closes_piece (n : Nat) (atStart : Bool) (c : Char) (s : List Char) :
    ¬ Closes n atStart (piece n quoted atStart c ++ s) := by
  rintro ⟨rest, noQuote, same⟩
  cases ends : isBreak c <;>
    simp only [piece, ends, if_true, if_false, Bool.false_eq_true, List.append_assoc] at same
  · have inner := List.append_cancel_left same
    by_cases quote : c = '\''
    · rw [quote] at inner
      cases inner
      exact noQuote '\'' rfl rfl
    · simp [quoted, quote] at inner
  · cases ends.symm.trans (not_break_pad rfl same.symm)

theorem single_append (n : Nat) (s r : List Char) :
    single n s ++ r =
      '\'' :: (indented n quoted false s ++ (pad n (atStartBehind false s) ++ '\'' :: r)) := by
  rw [atStartBehind_false]
  simp only [single, List.cons_append, List.append_assoc]
  rfl

theorem single_append_inj {n : Nat} {s t r r' : List Char} (hr : ∀ c ∈ r.head?, c ≠ '\'')
    (hr' : ∀ c ∈ r'.head?, c ≠ '\'') (same : single n s ++ r = single n t ++ r') :
    s = t ∧ r = r' := by
  rw [single_append, single_append] at same
  obtain ⟨rfl, behind⟩ := indented_append_inj quoted_cons (not_closes_piece n)
    ⟨r, hr, rfl⟩ ⟨r', hr', rfl⟩ (List.cons.inj same).2
  exact ⟨rfl, (List.cons.inj (List.append_cancel_left behind)).2⟩

/-- The indentation does not show in a text on one line. -/
theorem single_of_no_break {s : List Char} (h : ∀ c ∈ s, isBreak c = false) (n : Nat) :
    single n s = '\'' :: (s.flatMap quoted ++ ['\'']) := by
  have last : s.getLast?.any isBreak = false := by
    cases found : s.getLast? with
    | none => rfl
    | some c => exact h c (List.mem_of_getLast? found)
  simp only [single, last, Bool.false_eq_true, if_false, List.append_nil]
  rw [← indented_of_no_break h]
  rfl

/-! ## Double quotes -/

/-- The character that stands behind a backslash, and the text behind it. -/
def escaped? : List Char → Option (Char × List Char)
  | '0' :: r => some ('\x00', r)
  | 'a' :: r => some ('\x07', r)
  | 'b' :: r => some ('\x08', r)
  | 't' :: r => some ('\t', r)
  | 'n' :: r => some ('\n', r)
  | 'v' :: r => some ('\x0B', r)
  | 'f' :: r => some ('\x0C', r)
  | 'r' :: r => some ('\r', r)
  | 'e' :: r => some ('\x1B', r)
  | '"' :: r => some ('"', r)
  | '\\' :: r => some ('\\', r)
  | 'N' :: r => some ('\u0085', r)
  | 'L' :: r => some ('\u2028', r)
  | 'P' :: r => some ('\u2029', r)
  | 'x' :: r => scalar? 2 r
  | 'u' :: r => scalar? 4 r
  | 'U' :: r => scalar? 8 r
  | _ => none

/-- A character in double quotes either stands for itself or is read behind a backslash. -/
theorem escape_cases (c : Char) :
    (escape c = [c] ∧ c ≠ '"' ∧ c ≠ '\\') ∨
      ∃ e, escape c = '\\' :: e ∧ ∀ rest, escaped? (e ++ rest) = some (c, rest) := by
  unfold escape
  split
  all_goals try exact .inr ⟨_, rfl, fun rest => rfl⟩
  next quote backslash _ _ _ =>
    have valid : c.toNat < 0x110000 := by
      rcases c.valid with low | ⟨-, high⟩
      · exact Nat.lt_trans low (by omega)
      · exact high
    split
    · exact .inl ⟨rfl, quote, backslash⟩
    · split
      · next small => exact .inr ⟨_, rfl, fun rest => scalar?_padded (.inl rfl) small rest⟩
      · split
        · next small => exact .inr ⟨_, rfl, fun rest => scalar?_padded (.inl rfl) small rest⟩
        · refine .inr ⟨_, rfl, fun rest => scalar?_padded (.inl rfl) ?_ rest⟩
          omega

theorem escape_append_ne_quote (c : Char) (s r : List Char) : escape c ++ s ≠ '"' :: r := by
  rcases escape_cases c with ⟨same, quote, -⟩ | ⟨e, same, -⟩ <;> simp [same]
  exact fun h _ => quote h

theorem escape_append_inj {c d : Char} {s t : List Char} (same : escape c ++ s = escape d ++ t) :
    c = d ∧ s = t := by
  rcases escape_cases c with ⟨first, -, plain⟩ | ⟨e, first, found⟩ <;>
    rcases escape_cases d with ⟨second, -, plain'⟩ | ⟨e', second, found'⟩ <;>
    rw [first, second] at same
  · exact List.cons.inj same
  · exact absurd (List.cons.inj same).1 plain
  · exact absurd (List.cons.inj same).1.symm plain'
  · have inner : e ++ s = e' ++ t := (List.cons.inj same).2
    have read := found s
    rw [inner, found' t] at read
    cases read
    exact ⟨rfl, rfl⟩

theorem escaped_append_inj {s t r r' : List Char}
    (same : s.flatMap escape ++ '"' :: r = t.flatMap escape ++ '"' :: r') : s = t ∧ r = r' := by
  induction s generalizing t with
  | nil =>
    cases t with
    | nil => exact ⟨rfl, (List.cons.inj same).2⟩
    | cons d t =>
      rw [List.flatMap_cons, List.append_assoc] at same
      exact absurd same.symm (escape_append_ne_quote d _ r)
  | cons c s ih =>
    cases t with
    | nil =>
      rw [List.flatMap_cons, List.append_assoc] at same
      exact absurd same (escape_append_ne_quote c _ r')
    | cons d t =>
      rw [List.flatMap_cons, List.flatMap_cons, List.append_assoc, List.append_assoc] at same
      obtain ⟨rfl, rest⟩ := escape_append_inj same
      obtain ⟨rfl, rfl⟩ := ih rest
      exact ⟨rfl, rfl⟩

theorem double_append_inj {s t r r' : List Char} (same : double s ++ r = double t ++ r') :
    s = t ∧ r = r' := by
  refine escaped_append_inj ?_
  simpa [double] using same

/-! ## Literal blocks -/

/-- The lines of a literal block, each with a break at its end. -/
def lines (s : List Char) : List Char := if s.getLast?.any isBreak then s else s ++ ['\n']

theorem indented_append_break (n : Nat) (write : Char → List Char) (atStart : Bool)
    (s : List Char) :
    indented n write atStart (s ++ ['\n']) = indented n write atStart s ++ ['\n'] := by
  induction s generalizing atStart with
  | nil => rfl
  | cons c s ih =>
    rw [List.cons_append, indented_cons, indented_cons, ih, List.append_assoc]

theorem literal_append (n : Nat) (s r : List Char) :
    literal n s ++ (if s.getLast?.any isBreak then [] else ['\n']) ++ r =
      literalHeader s ++ '\n' :: (indented n (fun c => [c]) true (lines s) ++ r) := by
  cases ends : s.getLast?.any isBreak
  · simp [literal, lines, ends, indented_append_break]
  · simp [literal, lines, ends]

theorem atStartBehind_lines (s : List Char) : atStartBehind true (lines s) = true := by
  rcases List.eq_nil_or_concat s with rfl | ⟨s, c, rfl⟩
  · rfl
  · cases ends : isBreak c <;> simp [lines, atStartBehind, ends]
    rfl

theorem not_mem_literalHeader (s : List Char) : '\n' ∉ literalHeader s := by
  simp only [literalHeader, List.mem_cons, List.mem_append, not_or]
  refine ⟨by decide, ?_, ?_⟩
  · split <;> simp
  · repeat' split
    all_goals simp

/-- The header tells whether the last line of the text has a break of its own. -/
theorem mem_literalHeader (s : List Char) :
    '-' ∈ literalHeader s ↔ s.getLast?.any isBreak = false := by
  rcases List.eq_nil_or_concat s with rfl | ⟨s, c, rfl⟩
  · simp [literalHeader]
  · cases ends : isBreak c <;> simp [literalHeader, ends]

theorem lines_inj {s t : List Char} (header : literalHeader s = literalHeader t)
    (same : lines s = lines t) : s = t := by
  have ends : s.getLast?.any isBreak = false ↔ t.getLast?.any isBreak = false := by
    rw [← mem_literalHeader, ← mem_literalHeader, header]
  cases first : s.getLast?.any isBreak <;> cases second : t.getLast?.any isBreak <;>
    simp_all [lines]

theorem append_break_inj {s t r r' : List Char} (hs : '\n' ∉ s) (ht : '\n' ∉ t)
    (same : s ++ '\n' :: r = t ++ '\n' :: r') : s = t ∧ r = r' := by
  rcases List.append_eq_append_iff.1 same with ⟨d, rfl, rest⟩ | ⟨d, rfl, rest⟩
  · cases d with
    | nil => exact ⟨(List.append_nil s).symm, (List.cons.inj rest).2⟩
    | cons c d => exact absurd (by simp [← (List.cons.inj rest).1]) ht
  · cases d with
    | nil => exact ⟨List.append_nil t, (List.cons.inj rest).2.symm⟩
    | cons c d => exact absurd (by simp [← (List.cons.inj rest).1]) hs

/-- The end of a literal block, with what follows it. -/
def EndsBlock (n : Nat) (atStart : Bool) (s : List Char) : Prop := atStart = true ∧ Dedent n s

theorem not_endsBlock_piece (n : Nat) (atStart : Bool) (c : Char) (s : List Char) :
    ¬ EndsBlock n atStart (piece n (fun c => [c]) atStart c ++ s) := by
  rintro ⟨rfl, dedent⟩
  cases ends : isBreak c
  · rw [piece, ends] at dedent
    refine not_dedent_indent n c s ?_
    simpa [pad] using dedent
  · rw [piece, ends] at dedent
    cases ends.symm.trans dedent.not_break

theorem literal_append_inj {n : Nat} {s t r r' : List Char} (hr : Dedent n r) (hr' : Dedent n r')
    (same : literal n s ++ (if s.getLast?.any isBreak then [] else ['\n']) ++ r =
      literal n t ++ (if t.getLast?.any isBreak then [] else ['\n']) ++ r') :
    s = t ∧ r = r' := by
  rw [literal_append, literal_append] at same
  obtain ⟨header, body⟩ :=
    append_break_inj (not_mem_literalHeader s) (not_mem_literalHeader t) same
  obtain ⟨text, rest⟩ := indented_append_inj (fun c => ⟨[], rfl⟩) (not_endsBlock_piece n)
    ⟨atStartBehind_lines s, hr⟩ ⟨atStartBehind_lines t, hr'⟩ body
  exact ⟨lines_inj header text, rest⟩

/-! ## Words -/

/-- A text that stands for itself, up to the end of the line or to a colon before a blank. -/
structure IsWord (w : List Char) : Prop where
  noBreak : '\n' ∉ w
  noMark : hasInnerMark w = false
  opens : ∀ rest, opening (w ++ rest) = .word

/-- What ends a scalar on one line. -/
def Ends (c : Char) (rest : List Char) : Prop :=
  c = '\n' ∨ c = ':' ∧ rest.head?.any isSeparator = true

theorem anyPair_append {p : Char → Char → Bool} {c d : Char} (h : p c d = true)
    (before behind : List Char) : anyPair p (before ++ c :: d :: behind) = true := by
  induction before with
  | nil => simp [anyPair, h]
  | cons b before ih =>
    cases before with
    | nil => simp [anyPair, h]
    | cons b' before =>
      simp only [List.cons_append, anyPair, Bool.or_eq_true]
      exact .inr ih

theorem hasInnerMark_colon {d : Char} (separates : isSeparator d = true)
    (before behind : List Char) : hasInnerMark (before ++ ':' :: d :: behind) = true := by
  rw [hasInnerMark, anyPair_append (by simp [separates])]
  rfl

/-- A word does not reach beyond what ends a shorter one. -/
theorem IsWord.ends {w d r s : List Char} {c : Char} (word : IsWord (w ++ d)) (ends : Ends c r)
    (same : c :: r = d ++ s) : d = [] := by
  cases d with
  | nil => rfl
  | cons e d =>
    exfalso
    obtain ⟨rfl, rfl⟩ := List.cons.inj same
    rcases ends with rfl | ⟨rfl, separates⟩
    · exact word.noBreak (by simp)
    · have mark := word.noMark
      cases d with
      | nil => simp [hasInnerMark] at mark
      | cons e d => rw [hasInnerMark_colon (by simpa using separates)] at mark; cases mark

theorem IsWord.append_inj {w w' r r' : List Char} {c c' : Char} (word : IsWord w)
    (word' : IsWord w') (ends : Ends c r) (ends' : Ends c' r')
    (same : w ++ c :: r = w' ++ c' :: r') : w = w' ∧ c = c' ∧ r = r' := by
  rcases List.append_eq_append_iff.1 same with ⟨d, rfl, rest⟩ | ⟨d, rfl, rest⟩
  · have nothing := word'.ends ends rest
    subst nothing
    exact ⟨(List.append_nil w).symm, List.cons.inj rest⟩
  · have nothing := word.ends ends' rest
    subst nothing
    obtain ⟨rfl, rfl⟩ := List.cons.inj rest
    exact ⟨List.append_nil w', rfl, rfl⟩

/-! ## Scalars on one line -/

/-- A scalar that is no literal block. -/
inductive Inline where
  | word (w : List Char)
  | single (s : List Char)
  | double (s : List Char)

namespace Inline

/-- The scalar in its style. -/
def ofText : Style → List Char → Inline
  | .plain, s => word s
  | .single, s => single s
  | .double, s => double s
  | .literal, s => word s

/-- What is written, without its quotes. -/
def content : Inline → List Char
  | word w => w
  | single s => s
  | double s => s

def text (n : Nat) : Inline → List Char
  | word w => w
  | single s => Yaml.single n s
  | double s => Yaml.double s

def opening : Inline → Opening
  | word _ => .word
  | single _ => .single
  | double _ => .double

def Valid : Inline → Prop
  | word w => IsWord w
  | single _ => True
  | double _ => True

theorem opening_ne (x : Inline) :
    x.opening ≠ .blank ∧ x.opening ≠ .literal ∧ x.opening ≠ .item ∧ x.opening ≠ .longKey := by
  cases x <;> simp [opening]

theorem opening_text_append {x : Inline} (valid : x.Valid) (n : Nat) (r : List Char) :
    Yaml.opening (x.text n ++ r) = x.opening := by
  cases x with
  | word w => exact valid.opens r
  | single s => rfl
  | double s => rfl

theorem text_append_inj {x y : Inline} (hx : x.Valid) (hy : y.Valid) {n : Nat} {c d : Char}
    {r s : List Char} (hr : Ends c r) (hs : Ends d s)
    (same : x.text n ++ c :: r = y.text n ++ d :: s) : x = y ∧ c = d ∧ r = s := by
  have noQuote : ∀ {c : Char} {r : List Char}, Ends c r → ∀ d ∈ (c :: r).head?, d ≠ '\'' := by
    rintro c r (rfl | ⟨rfl, -⟩) d hd <;> cases hd <;> decide
  have openings : x.opening = y.opening := by
    rw [← opening_text_append hx n (c :: r), same, opening_text_append hy]
  cases x with
  | word w =>
    cases y <;> cases openings
    obtain ⟨rfl, rest⟩ := IsWord.append_inj hx hy hr hs same
    exact ⟨rfl, rest⟩
  | single s =>
    cases y <;> cases openings
    obtain ⟨rfl, rest⟩ := single_append_inj (noQuote hr) (noQuote hs) same
    exact ⟨rfl, List.cons.inj rest⟩
  | double s =>
    cases y <;> cases openings
    obtain ⟨rfl, rest⟩ := double_append_inj same
    exact ⟨rfl, List.cons.inj rest⟩

end Inline

/-! ## Texts -/

/-- The scalar of a text that is no literal block. -/
def inline (s : List Char) : Inline := .ofText (style s) s

theorem content_inline (s : List Char) : (inline s).content = s := by
  rw [inline]
  cases style s <;> rfl

theorem inline_inj {s t : List Char} (same : inline s = inline t) : s = t := by
  rw [← content_inline s, same, content_inline]

theorem style_ne_literal {s : List Char} (h : '\n' ∉ s) : style s ≠ .literal := by
  have inLine : ¬ s.contains '\n' = true := by simpa using h
  rw [style, if_neg inLine]
  split
  · decide
  · split <;> decide

theorem style_plain {s : List Char} (h : style s = .plain) :
    '\n' ∉ s ∧ fitsPlain s = true ∧ isNoText s = false := by
  unfold style at h
  split at h
  · split at h <;> cases h
  · next inLine =>
    split at h
    · next fits => exact ⟨by simpa using inLine, by simpa using fits⟩
    · split at h <;> cases h

theorem opening_cons {c : Char} {r : List Char} (quote : c ≠ '\'') (doubleQuote : c ≠ '"')
    (bar : c ≠ '|') (mark : c = '-' ∨ c = '?' → ∀ r', r ≠ ' ' :: r') (space : c ≠ ' ')
    (goesOn : isBreak c = false) : opening (c :: r) = .word := by
  unfold opening
  split
  · next same => exact absurd (List.cons.inj same).1 quote
  · next same => exact absurd (List.cons.inj same).1 doubleQuote
  · next same => exact absurd (List.cons.inj same).1 bar
  · next same => exact absurd (List.cons.inj same).2 (mark (.inl (List.cons.inj same).1) _)
  · next same => exact absurd (List.cons.inj same).2 (mark (.inr (List.cons.inj same).1) _)
  · next same =>
    obtain ⟨rfl, -⟩ := List.cons.inj same
    simp [isSpaceOrBreak, space, goesOn]
  · next same => cases same

theorem isWord_of_plain {s : List Char} (h : style s = .plain) : IsWord s := by
  obtain ⟨inLine, fits, isText⟩ := style_plain h
  simp only [fitsPlain, Bool.not_eq_true', Bool.or_eq_false_iff, beq_eq_false_iff_ne, ne_eq] at fits
  obtain ⟨⟨⟨⟨⟨noMark, noInner⟩, -⟩, noBreak⟩, noSpace⟩, -⟩ := fits
  refine ⟨inLine, noInner, ?_⟩
  cases s with
  | nil => cases isText
  | cons c s =>
    intro rest
    have goesOn : isBreak c = false := by
      rw [List.any_cons, Bool.or_eq_false_iff] at noBreak
      exact noBreak.1
    refine opening_cons ?_ ?_ ?_ ?_ (by rintro rfl; exact noSpace rfl) goesOn
    · rintro rfl
      cases noMark
    · rintro rfl
      cases noMark
    · rintro rfl
      cases noMark
    · rintro mark r same
      cases s with
      | nil => rcases mark with rfl | rfl <;> cases noMark
      | cons d s =>
        obtain ⟨rfl, -⟩ := List.cons.inj same
        rcases mark with rfl | rfl <;> cases noMark

theorem inline_valid {s : List Char} (h : style s ≠ .literal) : (inline s).Valid := by
  rw [inline]
  cases same : style s with
  | plain => exact isWord_of_plain same
  | single => trivial
  | double => trivial
  | literal => exact absurd same h

theorem scalar_inline {s : String} (h : style s.toList ≠ .literal) (n : Nat) :
    scalar n s = (inline s.toList).text n ++ ['\n'] := by
  simp only [scalar, inline]
  cases same : style s.toList with
  | plain => rfl
  | single => rfl
  | double => rfl
  | literal => exact absurd same h

theorem scalar_literal {s : String} (h : style s.toList = .literal) (n : Nat) :
    scalar n s =
      literal n s.toList ++ (if s.toList.getLast?.any isBreak then [] else ['\n']) := by
  simp only [scalar, h]

theorem opening_scalar_literal {s : String} (h : style s.toList = .literal) (n : Nat)
    (r : List Char) : opening (scalar n s ++ r) = .literal := by
  rw [scalar_literal h]
  rfl

theorem opening_scalar_inline {s : String} (h : style s.toList ≠ .literal) (n : Nat)
    (r : List Char) : opening (scalar n s ++ r) = (inline s.toList).opening := by
  rw [scalar_inline h, List.append_assoc, Inline.opening_text_append (inline_valid h)]

/-- Scalars of texts can be read off where what follows them is dedented. -/
theorem scalar_append_inj {n : Nat} {s t : String} {r r' : List Char} (hr : Dedent n r)
    (hr' : Dedent n r') (same : scalar n s ++ r = scalar n t ++ r') : s = t ∧ r = r' := by
  have openings := congrArg opening same
  by_cases first : style s.toList = .literal <;> by_cases second : style t.toList = .literal
  · rw [scalar_literal first, scalar_literal second] at same
    obtain ⟨text, rest⟩ := literal_append_inj hr hr' same
    exact ⟨String.toList_inj.1 text, rest⟩
  · rw [opening_scalar_literal first, opening_scalar_inline second] at openings
    exact absurd openings.symm (inline t.toList).opening_ne.2.1
  · rw [opening_scalar_inline first, opening_scalar_literal second] at openings
    exact absurd openings (inline s.toList).opening_ne.2.1
  · rw [scalar_inline first, scalar_inline second, List.append_assoc, List.append_assoc] at same
    obtain ⟨text, -, rest⟩ := Inline.text_append_inj (inline_valid first) (inline_valid second)
      (.inl rfl) (.inl rfl) same
    exact ⟨String.toList_inj.1 (inline_inj text), rest⟩

end BuildScript.Yaml
