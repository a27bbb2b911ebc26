import BuildScript.Document.Tree
import BuildScript.Format.Yaml.Scalar

/-!
# YAML

Documents as YAML in block style, indented by two spaces for each level.  A sequence under a key
stands at the indentation of the key.
-/

namespace BuildScript.Yaml

/-- A key that stands before its colon on one line. -/
def isShortKey (k : String) : Bool := !k.toList.any isBreak && k.utf8ByteSize ≤ 128

/-- A short key with its colon. -/
def shortKey (k : String) : List Char := (scalar 0 k).dropLast ++ [':']

/-- A key behind a mark of its own, with the colon on the next line. -/
def longKey (n : Nat) (k : String) : List Char :=
  '?' :: ' ' :: (scalar (n + 2) k ++ indent n ++ [':'])

/-- What fits behind an indicator without a block of its own. -/
def leaf (n : Nat) : Tree → List Char
  | .text s => ' ' :: scalar (n + 2) s
  | .boolean b => (if b then " true\n" else " false\n").toList
  | .array _ => " []\n".toList
  | .map _ => [' ', '{', '}', '\n']

mutual

/-- A value behind a `-` or the `:` of a long key: a block begins on the same line. -/
def nested (n : Nat) : Tree → List Char
  | .array (t :: items) => ' ' :: array (n + 2) (t :: items)
  | .map (e :: entries) => ' ' :: map (n + 2) (e :: entries)
  | t => leaf n t

/-- A value behind a short key: a block begins on the next line. -/
def behindKey (n : Nat) : Tree → List Char
  | .array (t :: items) => '\n' :: (indent n ++ array n (t :: items))
  | .map (e :: entries) => '\n' :: (indent (n + 2) ++ map (n + 2) (e :: entries))
  | t => leaf n t

/-- The items of a sequence, the first one where the indentation ends. -/
def array (n : Nat) : List Tree → List Char
  | [] => []
  | t :: items =>
    '-' :: (nested n t ++
      match items with
      | [] => []
      | t :: items => indent n ++ array n (t :: items))

/-- The entries of a mapping, the first one where the indentation ends. -/
def map (n : Nat) : List (String × Tree) → List Char
  | [] => []
  | (k, t) :: entries =>
    (if isShortKey k then shortKey k ++ behindKey n t else longKey n k ++ nested n t) ++
      match entries with
      | [] => []
      | e :: entries => indent n ++ map n (e :: entries)

end

def encode (doc : Document) : String :=
  match entryTrees doc with
  | [] => String.ofList ['{', '}', '\n']
  | entries => String.ofList (map 0 entries)

end BuildScript.Yaml
