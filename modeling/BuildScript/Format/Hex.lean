/-!
# Hexadecimal digits

Code points as escapes write them.
-/

namespace BuildScript.Hex

/-- The digit of a number below sixteen, with the given first letter. -/
def digit (letter : Char) (n : Nat) : Char :=
  if n < 10 then Char.ofNat ('0'.toNat + n) else Char.ofNat (letter.toNat + (n - 10))

/-- The last `width` digits of a number, the most significant first. -/
def padded (letter : Char) : Nat → Nat → List Char
  | 0, _ => []
  | width + 1, n => padded letter width (n / 16) ++ [digit letter (n % 16)]

/-- All digits of a number, without leading zeros. -/
def shortest (letter : Char) (n : Nat) : List Char :=
  if n < 16 then [digit letter n] else shortest letter (n / 16) ++ [digit letter (n % 16)]

end BuildScript.Hex
