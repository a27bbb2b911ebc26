/-!
# Documents

What a build script says, as data.  A document lists keys in the order in which they first
appeared, each with one value.
-/

namespace BuildScript

/-- Names with their texts, sorted by name. -/
abbrev Attributes := List (String × String)

/-- One declaration of a `dependencies` block. -/
structure Dependency where
  group : String
  name : String
  version : String
  /-- The keyword of the declaration, such as `implementation`. -/
  kind : String
  /-- The rules of its `exclude` lines. -/
  excludes : List Attributes

/-- One entry of a `repositories` block. -/
inductive Repository (α : Type) where
  /-- A bare call such as `mavenCentral()`. -/
  | unknown (name : String)
  /-- A block or an inline value under a name such as `maven`. -/
  | named (type : String) (data : α)

inductive Value where
  | text (text : String)
  | boolean (value : Bool)
  | sequence (items : List Value)
  | document (entries : List (String × Value))
  | dependencies (declarations : List Dependency)
  | repositories (entries : List (Repository Value))

abbrev Document := List (String × Value)

/-! ## Attributes -/

/-- Set the text of one name, at its place in the order. -/
def Attributes.set (name text : String) : Attributes → Attributes
  | [] => [(name, text)]
  | (n, t) :: rule =>
    if name < n then (name, text) :: (n, t) :: rule
    else if name = n then (n, text) :: rule
    else (n, t) :: Attributes.set name text rule

/-- The attributes of the given pairs; of two texts for one name the later one counts. -/
def Attributes.ofPairs (pairs : List (String × String)) : Attributes :=
  pairs.foldl (fun attributes pair => Attributes.set pair.1 pair.2 attributes) []

/-! ## Values -/

namespace Value

def isEmptyText : Value → Bool
  | text s => s = ""
  | _ => false

def text? : Value → Option String
  | text s => some s
  | _ => none

def boolean? : Value → Option Bool
  | boolean b => some b
  | _ => none

def sequence? : Value → Option (List Value)
  | sequence items => some items
  | _ => none

def document? : Value → Option Document
  | document entries => some entries
  | _ => none

def dependencies? : Value → Option (List Dependency)
  | dependencies declarations => some declarations
  | _ => none

def repositories? : Value → Option (List (Repository Value))
  | repositories entries => some entries
  | _ => none

end Value

/-! ## Keys -/

namespace Document

def get? (key : String) : Document → Option Value
  | [] => none
  | (k, v) :: doc => if k = key then some v else get? key doc

/-- Set the value of a key.  A key that is present keeps its place, a new one goes to the end. -/
def set (key : String) (value : Value) : Document → Document
  | [] => [(key, value)]
  | (k, v) :: doc => if k = key then (k, value) :: doc else (k, v) :: set key value doc

def keys (doc : Document) : List String := doc.map Prod.fst

theorem get?_set (doc : Document) (key k : String) (value : Value) :
    (doc.set key value).get? k = if key = k then some value else doc.get? k := by
  induction doc with
  | nil => simp [set, get?]
  | cons entry doc ih =>
    obtain ⟨name, v⟩ := entry
    by_cases same : name = key
    · subst same
      by_cases found : name = k <;> simp [set, get?, found]
    · by_cases found : name = k
      · subst found
        simp [set, get?, same, Ne.symm same]
      · simp [set, get?, same, found, ih]

theorem keys_set (doc : Document) (key : String) (value : Value) :
    keys (doc.set key value) = if key ∈ keys doc then keys doc else keys doc ++ [key] := by
  induction doc with
  | nil => simp [set, keys]
  | cons entry doc ih =>
    obtain ⟨name, v⟩ := entry
    by_cases same : name = key
    · subst same
      simp [set, keys]
    · simp only [keys] at ih
      by_cases present : key ∈ doc.map Prod.fst <;>
        simp [set, keys, same, Ne.symm same, ih, present]

/-- The document of the given pairs, set one after the other. -/
def ofPairs (pairs : List (String × Value)) : Document :=
  pairs.foldl (fun doc pair => set pair.1 pair.2 doc) []

/-- Look up one key after the other, through nested documents. -/
def getPath? (doc : Document) : List String → Option Value
  | [] => none
  | [key] => doc.get? key
  | key :: path => do (← (← doc.get? key).document?).getPath? path

/-- Add a value under a key that may be taken: the values of one key gather in a sequence, and a
sequence that is there already takes the new value as its last item. -/
def add (key : String) (value : Value) (doc : Document) : Document :=
  match doc.get? key with
  | none => doc.set key value
  | some (.sequence items) => doc.set key (.sequence (items ++ [value]))
  | some earlier => doc.set key (.sequence [earlier, value])

/-! ## Merging -/

mutual

/-- Take over the entries of another document, one after the other. -/
def merge (base : Document) : List (String × Value) → Document
  | [] => base
  | (key, value) :: incoming => merge (mergeEntry base key value) incoming

/-- Two documents under one key are merged; otherwise the new value replaces the old one. -/
def mergeEntry (base : Document) (key : String) : Value → Document
  | .document incoming =>
    match base.get? key with
    | some (.document existing) => base.set key (.document (merge existing incoming))
    | _ => base.set key (.document incoming)
  | value => base.set key value

end

/-- Put the value of a block under its key.  It joins the value of an earlier block of that key if
both are documents, lists of dependencies or lists of repositories, and replaces it otherwise. -/
def joinBlock (key : String) (value : Value) (doc : Document) : Document :=
  match value, doc.get? key with
  | .document incoming, some (.document existing) =>
    doc.set key (.document (merge existing incoming))
  | .dependencies more, some (.dependencies existing) =>
    doc.set key (.dependencies (existing ++ more))
  | .repositories more, some (.repositories existing) =>
    doc.set key (.repositories (existing ++ more))
  | value, _ => doc.set key value

end Document

end BuildScript
