import BuildScript.Format.Hex
import Mathlib.Algebra.Group.Nat.Defs

/-!
# Escapes

What readers of strings share, whatever the format: characters by the hexadecimal digits of their
code points, and the text that is read before more of it.
-/

namespace BuildScript.Escape

/-! ## Readers -/

def hexValue? (c : Char) : Option Nat :=
  if c.isDigit then some (c.toNat - '0'.toNat)
  else if 'a' ≤ c && c ≤ 'f' then some (c.toNat - 'a'.toNat + 10)
  else if 'A' ≤ c && c ≤ 'F' then some (c.toNat - 'A'.toNat + 10)
  else none

def hexNumber? (s : List Char) : Option Nat :=
  s.foldlM (fun n c => (hexValue? c).map (16 * n + ·)) 0

/-- The character with a code point of so many digits, and the text behind them. -/
def scalar? (width : Nat) (s : List Char) : Option (Char × List Char) :=
  if s.length < width then none
  else (hexNumber? (s.take width)).bind fun n =>
    if n.isValidChar then some (Char.ofNat n, s.drop width) else none

/-- A text with more before it. -/
def prepend (before : List Char) (result : Option (List Char × List Char)) :
    Option (List Char × List Char) :=
  result.map fun (s, rest) => (before ++ s, rest)

theorem scalar?_length {width : Nat} {s rest : List Char} {c : Char}
    (h : scalar? width s = some (c, rest)) : rest.length ≤ s.length := by
  unfold scalar? at h
  split at h
  · cases h
  · obtain ⟨n, -, h⟩ := Option.bind_eq_some_iff.1 h
    split at h <;> cases h
    exact (List.drop_suffix width s).length_le

/-! ## Digits come back -/

section

variable {letter : Char} (h : letter = 'A' ∨ letter = 'a')
include h

theorem hexValue?_digit (n : Fin 16) : hexValue? (Hex.digit letter n) = some n.1 := by
  rcases h with rfl | rfl <;> revert n <;> decide

theorem hexNumber?_padded (width n : Nat) :
    hexNumber? (Hex.padded letter width n) = some (n % 16 ^ width) := by
  induction width generalizing n with
  | zero => simp [Hex.padded, hexNumber?, Nat.mod_one]
  | succ width ih =>
    have digit := hexValue?_digit h ⟨n % 16, Nat.mod_lt n (by decide)⟩
    have before := ih (n / 16)
    rw [hexNumber?] at before
    rw [Hex.padded, hexNumber?, List.foldlM_append, before]
    simp only [Option.bind_eq_bind, Option.bind_some, List.foldlM_cons, List.foldlM_nil, digit,
      Option.map_some, Option.pure_def]
    rw [Nat.pow_succ', Nat.mod_mul, Nat.add_comm]

omit h in
theorem length_padded (width n : Nat) : (Hex.padded letter width n).length = width := by
  induction width generalizing n with
  | zero => rfl
  | succ width ih => simp [Hex.padded, ih]

theorem scalar?_padded {width : Nat} {c : Char} (small : c.toNat < 16 ^ width)
    (rest : List Char) :
    scalar? width (Hex.padded letter width c.toNat ++ rest) = some (c, rest) := by
  have length : (Hex.padded letter width c.toNat).length = width := length_padded width c.toNat
  have enough : ¬ (Hex.padded letter width c.toNat ++ rest).length < width := by
    rw [List.length_append, length]
    exact Nat.not_lt.2 (Nat.le_add_right _ _)
  rw [scalar?, if_neg enough, List.take_left' length, List.drop_left' length, hexNumber?_padded h,
    Nat.mod_eq_of_lt small, Option.bind_some, if_pos (show c.toNat.isValidChar from c.valid),
    Char.ofNat_toNat]

end

end BuildScript.Escape
