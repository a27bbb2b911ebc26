/-!
# Plain scalars

What a reader of YAML takes a plain scalar for: a text, unless it looks like null, a truth value or
a number.
-/

namespace BuildScript.Yaml

/-! ## Integers -/

/-- The value of a digit, in any base up to sixteen. -/
def digitValue? (c : Char) : Option Nat :=
  if c.isDigit then some (c.toNat - '0'.toNat)
  else if 'a' ≤ c && c ≤ 'f' then some (c.toNat - 'a'.toNat + 10)
  else if 'A' ≤ c && c ≤ 'F' then some (c.toNat - 'A'.toNat + 10)
  else none

/-- The number that digits of a base write, read on from `n`. -/
def digits? (base n : Nat) : List Char → Option Nat
  | [] => some n
  | c :: r =>
    match digitValue? c with
    | none => none
    | some d => if d < base then digits? base (base * n + d) r else none

/-- An integer in a base other than ten, behind its sign. -/
def basedInteger? : List Char → Option Nat
  | '0' :: 'x' :: c :: r => digits? 16 0 (c :: r)
  | '0' :: 'o' :: c :: r => digits? 8 0 (c :: r)
  | '0' :: 'b' :: c :: r => digits? 2 0 (c :: r)
  | _ => none

/-! ## Decimals -/

/-- The number `mantissa * 10 ^ exponent`. -/
structure Decimal where
  mantissa : Nat
  exponent : Int

/-- An exponent with its letter; none stands for zero. -/
def exponent? : List Char → Option Int
  | [] => some 0
  | letter :: r =>
    if letter == 'e' || letter == 'E' then
      match r with
      | '-' :: c :: r => (digits? 10 0 (c :: r)).map fun n => -(n : Int)
      | '+' :: c :: r => (digits? 10 0 (c :: r)).map Int.ofNat
      | c :: r => (digits? 10 0 (c :: r)).map Int.ofNat
      | [] => none
    else none

/-- A decimal behind its sign: digits with at most one point among them, and an exponent. -/
def decimal? (s : List Char) : Option Decimal :=
  let whole := s.takeWhile Char.isDigit
  let rest := s.dropWhile Char.isDigit
  let fraction := match rest with
    | '.' :: r => r.takeWhile Char.isDigit
    | _ => []
  let rest := match rest with
    | '.' :: r => r.dropWhile Char.isDigit
    | rest => rest
  if whole.isEmpty && fraction.isEmpty then none
  else
    match digits? 10 0 (whole ++ fraction), exponent? rest with
    | some mantissa, some exponent => some ⟨mantissa, exponent - fraction.length⟩
    | _, _ => none

/-- The least number that rounds to infinity in double precision. -/
def overflow : Nat := Nat.pow 2 1024 - Nat.pow 2 970

/-- The decimal rounds to a finite number in double precision.  Numbers of more than 309 digits and
those below `10 ^ 308` are settled without the power of ten. -/
def Decimal.isFinite (d : Decimal) : Bool :=
  let size : Int := (Nat.toDigits 10 d.mantissa).length
  if d.mantissa = 0 || size + d.exponent ≤ 308 then true
  else if 309 < size + d.exponent then false
  else
    d.mantissa * Nat.pow 10 d.exponent.toNat < overflow * Nat.pow 10 (-d.exponent).toNat

/-! ## Scalars that are no text -/

/-- A zero with more digits behind it. -/
def hasLeadingZero : List Char → Bool
  | '0' :: c :: r => (c :: r).all Char.isDigit
  | _ => false

/-- A number behind a sign that is negative or not. -/
def isUnsignedNumber (negative : Bool) (s : List Char) : Bool :=
  (basedInteger? s).any (fun n => if negative then n ≤ Nat.pow 2 127 else n < Nat.pow 2 128) ||
    (decimal? s).any Decimal.isFinite || hasLeadingZero s ||
    [".inf", ".Inf", ".INF"].contains (String.ofList s)

def isNumber (s : List Char) : Bool :=
  match s with
  | '-' :: r => isUnsignedNumber true r
  | '+' :: r => isUnsignedNumber false r
  | s => isUnsignedNumber false s || [".nan", ".NaN", ".NAN"].contains (String.ofList s)

/-- A plain scalar of these characters would not be read as a text. -/
def isNoText (s : List Char) : Bool :=
  ["", "null", "Null", "NULL", "~", "true", "True", "TRUE", "false", "False", "FALSE"].contains
    (String.ofList s) || isNumber s

end BuildScript.Yaml
