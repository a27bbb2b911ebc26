import BuildScript.Document.Tree

/-!
# CBOR

Documents as CBOR: definite lengths, each in the shortest head.
-/

namespace BuildScript.Cbor

/-- The last `width` bytes of a number, the most significant first. -/
def bigEndian : Nat → Nat → List UInt8
  | 0, _ => []
  | width + 1, n => bigEndian width (n / 256) ++ [UInt8.ofNat n]

/-- The head of an item of a major type with a length. -/
def head (major length : Nat) : List UInt8 :=
  let initial := fun info => UInt8.ofNat (32 * major + info)
  if length < 24 then [initial length]
  else if length < 0x100 then initial 24 :: bigEndian 1 length
  else if length < 0x10000 then initial 25 :: bigEndian 2 length
  else if length < 0x100000000 then initial 26 :: bigEndian 4 length
  else initial 27 :: bigEndian 8 length

def text (s : String) : List UInt8 := head 3 s.utf8ByteSize ++ s.toUTF8.data.toList

mutual

def value : Tree → List UInt8
  | .text s => text s
  | .boolean b => [if b then 0xF5 else 0xF4]
  | .array items => head 4 items.length ++ array items
  | .map entries => head 5 entries.length ++ map entries

def array : List Tree → List UInt8
  | [] => []
  | t :: items => value t ++ array items

def map : List (String × Tree) → List UInt8
  | [] => []
  | (k, t) :: entries => text k ++ value t ++ map entries

end

def encode (doc : Document) : List UInt8 := value doc.tree

end BuildScript.Cbor
