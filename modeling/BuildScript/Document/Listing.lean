import BuildScript.Document
import BuildScript.Text
import BuildScript.Format.Hex

/-!
# Listings

Documents in one line for diagnostic output.  Texts are quoted, and characters without a form of
their own are shown by their code points.
-/

namespace BuildScript.Listing

open Text

/-- A character of a quoted text. -/
def escape (c : Char) : List Char :=
  match c with
  | '\x00' => ['\\', '0']
  | '\t' => ['\\', 't']
  | '\n' => ['\\', 'n']
  | '\r' => ['\\', 'r']
  | '"' => ['\\', '"']
  | '\\' => ['\\', '\\']
  | c =>
    if Unicode.isGraphic c then [c]
    else ['\\', 'u', '{'] ++ Hex.shortest 'a' c.toNat ++ ['}']

def quoted (s : String) : List Char := '"' :: (s.toList.flatMap escape ++ ['"'])

def list (items : List (List Char)) : List Char := '[' :: (joined [',', ' '] items ++ [']'])

def map (entries : List (List Char × List Char)) : List Char :=
  '{' :: (joined [',', ' '] (entries.map fun (k, v) => k ++ ':' :: ' ' :: v) ++ ['}'])

/-- A record with the names of its fields. -/
def record (name : String) (fields : List (String × List Char)) : List Char :=
  let parts := fields.map fun (field, v) => field.toList ++ ':' :: ' ' :: v
  name.toList ++ ' ' :: '{' :: ' ' :: (joined [',', ' '] parts ++ [' ', '}'])

def attributes (pairs : Attributes) : List Char :=
  map (pairs.map fun (name, text) => (quoted name, quoted text))

def dependency (d : Dependency) : List Char :=
  record "DependencyDeclaration" [("group", quoted d.group), ("name", quoted d.name),
    ("version", quoted d.version), ("kind", quoted d.kind),
    ("excludes", list (d.excludes.map attributes))]

def repository (type : String) (data : List Char) : List Char :=
  record "RepositoryEntry" [("typ", quoted type), ("data", data)]

mutual

def value : Value → List Char
  | .text s => quoted s
  | .boolean b => (if b then "true" else "false").toList
  | .sequence items => list (values items)
  | .document doc => map (entries doc)
  | .dependencies declarations => list (declarations.map dependency)
  | .repositories items => list (repositories items)

def values : List Value → List (List Char)
  | [] => []
  | v :: items => value v :: values items

def entries : List (String × Value) → List (List Char × List Char)
  | [] => []
  | (k, v) :: doc => (quoted k, value v) :: entries doc

def repositories : List (Repository Value) → List (List Char)
  | [] => []
  | .unknown name :: items =>
    repository "unknown" (record "Unknown" [("name", quoted name)]) :: repositories items
  | .named type data :: items =>
    repository type ("Entry(".toList ++ value data ++ [')']) :: repositories items

end

def ofDocument (doc : Document) : String := String.ofList (value (.document doc))

end BuildScript.Listing
