import BuildScript.Unicode.Alphabetic
import BuildScript.Unicode.Number
import BuildScript.Unicode.Word
import BuildScript.Unicode.Mark
import BuildScript.Unicode.Invisible

/-!
# Character classes

The classes of characters that a build script's text and its printed form depend on.  Each class
settles ASCII on its own and looks up only the rest in the tables.  Words are those of version 16 of
the Unicode standard, all other classes those of version 17.
-/

namespace BuildScript.Unicode

/-- The code point of the character lies in one of the closed ranges. -/
def inRanges (ranges : List (Nat × Nat)) (c : Char) : Bool :=
  ranges.any fun range => range.1 ≤ c.toNat && c.toNat ≤ range.2

/-- Property White_Space. -/
def isBlank (c : Char) : Bool :=
  c == ' ' || ('\t' ≤ c && c ≤ '\r') ||
    inRanges [(0x85, 0x85), (0xA0, 0xA0), (0x1680, 0x1680), (0x2000, 0x200A), (0x2028, 0x2029),
      (0x202F, 0x202F), (0x205F, 0x205F), (0x3000, 0x3000)] c

/-- A letter in the wide sense of property Alphabetic, or a number. -/
def isAlphanumeric (c : Char) : Bool :=
  if c.toNat < 128 then c.isAlphanum
  else inRanges alphabeticRanges c || inRanges numberRanges c

/-- A character of a word: a letter, a mark, a decimal digit, a connector or a joiner. -/
def isWord (c : Char) : Bool :=
  if c.toNat < 128 then c.isAlphanum || c == '_' else inRanges wordRanges c

/-- A character that shows by itself: neither invisible nor an extension of the one before it. -/
def isGraphic (c : Char) : Bool :=
  if c.toNat < 128 then ' ' ≤ c && c ≤ '~'
  else !(inRanges invisibleRanges c || inRanges fillerRanges c || inRanges markRanges c)

end BuildScript.Unicode
