import BuildScript.Format.Cbor
import Mathlib.Algebra.Group.Nat.Defs

/-!
# Reading CBOR

A reader of CBOR that takes one head after the other and counts what is still to come in every
container that is open.  A document comes back from its bytes with all its data in its order, and
the reader stops right behind them: no encoding goes on as another one.
-/

namespace BuildScript.Cbor

/-! ## Heads -/

/-- The number that bytes write, the most significant first. -/
def number (bytes : List UInt8) : Nat := bytes.foldl (fun n b => 256 * n + b.toNat) 0

/-- The first so many bytes, and those behind them. -/
def split? (n : Nat) (s : List UInt8) : Option (List UInt8 × List UInt8) :=
  if s.length < n then none else some (s.take n, s.drop n)

/-- How many bytes behind the initial one hold the length. -/
def width? : Nat → Option Nat
  | 24 => some 1
  | 25 => some 2
  | 26 => some 4
  | 27 => some 8
  | _ => none

/-- The major type and the length of an item, and the bytes behind its head. -/
def head? : List UInt8 → Option ((Nat × Nat) × List UInt8)
  | [] => none
  | b :: r =>
    let major := b.toNat / 32
    let info := b.toNat % 32
    if info < 24 then some ((major, info), r)
    else ((width? info).bind (split? · r)).map fun found => ((major, number found.1), found.2)

variable {s rest : List UInt8}

theorem split?_append {n : Nat} (h : s.length = n) (rest : List UInt8) :
    split? n (s ++ rest) = some (s, rest) := by
  have enough : ¬ (s ++ rest).length < n := by
    rw [List.length_append]
    omega
  rw [split?, if_neg enough, List.take_left' h, List.drop_left' h]

theorem split?_length {n : Nat} {found : List UInt8 × List UInt8} (h : split? n s = some found) :
    found.2.length ≤ s.length := by
  unfold split? at h
  split at h <;> cases h
  exact (List.drop_suffix n s).length_le

theorem head?_length {found : Nat × Nat} (h : head? s = some (found, rest)) :
    rest.length < s.length := by
  unfold head? at h
  split at h
  · cases h
  · next b r =>
    simp only at h
    split at h
    · cases h
      exact Nat.lt_succ_self _
    · obtain ⟨bytes, taken, same⟩ := Option.map_eq_some_iff.1 h
      obtain ⟨width, -, taken⟩ := Option.bind_eq_some_iff.1 taken
      cases same
      exact Nat.lt_succ_of_le (split?_length taken)

theorem length_bigEndian (width n : Nat) : (bigEndian width n).length = width := by
  induction width generalizing n with
  | zero => rfl
  | succ width ih => simp [bigEndian, ih]

theorem number_bigEndian (width n : Nat) : number (bigEndian width n) = n % 256 ^ width := by
  induction width generalizing n with
  | zero => simp [bigEndian, number, Nat.mod_one]
  | succ width ih =>
    have last : (UInt8.ofNat n).toNat = n % 256 := UInt8.toNat_ofNat'
    have before := ih (n / 256)
    rw [number] at before
    rw [bigEndian, number, List.foldl_append, before, List.foldl_cons, List.foldl_nil, last,
      Nat.pow_succ', Nat.mod_mul, Nat.add_comm]

/-- A length in the bytes behind the initial one. -/
theorem head?_wide {major info width length : Nat} (small : 32 * major + info < 256)
    (wide : width? info = some width) (fits : length < 256 ^ width) (rest : List UInt8) :
    head? (UInt8.ofNat (32 * major + info) :: (bigEndian width length ++ rest)) =
      some ((major, length), rest) := by
  have info_eq : info = 24 ∨ info = 25 ∨ info = 26 ∨ info = 27 := by
    unfold width? at wide
    split at wide <;> simp_all
  have byte : (UInt8.ofNat (32 * major + info)).toNat = 32 * major + info := by
    rw [UInt8.toNat_ofNat', Nat.mod_eq_of_lt small]
  have parts : (32 * major + info) / 32 = major ∧ (32 * major + info) % 32 = info := by omega
  rw [head?, byte, parts.1, parts.2, if_neg (by omega), wide, Option.bind_some,
    split?_append (length_bigEndian width length), Option.map_some, number_bigEndian,
    Nat.mod_eq_of_lt fits]

/-- Lengths below 2³² come back from the shortest head. -/
theorem head?_head {major length : Nat} (h : major < 8) (small : length < 0x100000000)
    (rest : List UInt8) : head? (head major length ++ rest) = some ((major, length), rest) := by
  simp only [head]
  split
  · next direct =>
    have byte : (UInt8.ofNat (32 * major + length)).toNat = 32 * major + length := by
      rw [UInt8.toNat_ofNat', Nat.mod_eq_of_lt (by omega)]
    have parts : (32 * major + length) / 32 = major ∧ (32 * major + length) % 32 = length := by
      omega
    rw [List.singleton_append, head?, byte, parts.1, parts.2, if_pos direct]
  · split
    · next one => exact head?_wide (by omega) rfl one rest
    · split
      · next two => exact head?_wide (by omega) rfl two rest
      · exact head?_wide (by omega) rfl small rest

/-! ## Tokens -/

/-- What a head says, with the text behind it if it is the head of a text. -/
inductive Token where
  | text (s : String)
  | boolean (b : Bool)
  | array (length : Nat)
  | map (length : Nat)

/-- The token of a major type and a length, with what it takes of the bytes behind its head.
Numbers, byte strings and tags, which no document has, are not read. -/
def content? (major length : Nat) (s : List UInt8) : Option (Token × List UInt8) :=
  match major with
  | 3 =>
    (split? length s).bind fun found =>
      (String.fromUTF8? ⟨found.1.toArray⟩).map fun text => (.text text, found.2)
  | 4 => some (.array length, s)
  | 5 => some (.map length, s)
  | _ => none

/-- The token that the bytes begin with, and the bytes behind it. -/
def token? : List UInt8 → Option (Token × List UInt8)
  | [] => none
  | b :: r =>
    if b = 0xF4 then some (.boolean false, r)
    else if b = 0xF5 then some (.boolean true, r)
    else (head? (b :: r)).bind fun found => content? found.1.1 found.1.2 found.2

theorem content?_length {major length : Nat} {token : Token}
    (h : content? major length s = some (token, rest)) : rest.length ≤ s.length := by
  unfold content? at h
  split at h
  · obtain ⟨parts, taken, more⟩ := Option.bind_eq_some_iff.1 h
    obtain ⟨text, -, same⟩ := Option.map_eq_some_iff.1 more
    cases same
    exact split?_length taken
  · cases h
    exact Nat.le_refl _
  · cases h
    exact Nat.le_refl _
  · cases h

theorem token?_length {token : Token} (h : token? s = some (token, rest)) :
    rest.length < s.length := by
  unfold token? at h
  split at h
  · cases h
  · split at h
    · cases h
      exact Nat.lt_succ_self _
    · split at h
      · cases h
        exact Nat.lt_succ_self _
      · obtain ⟨⟨parts, behind⟩, found, inside⟩ := Option.bind_eq_some_iff.1 h
        exact Nat.lt_of_le_of_lt (content?_length inside) (head?_length found)

/-- A head of a text or a container does not begin like a truth value. -/
theorem head_cons {major : Nat} (h : major < 6) (length : Nat) :
    ∃ b r, head major length = b :: r ∧ b ≠ 0xF4 ∧ b ≠ 0xF5 := by
  have other : ∀ info < 28, UInt8.ofNat (32 * major + info) ≠ 0xF4 ∧
      UInt8.ofNat (32 * major + info) ≠ 0xF5 := by
    intro info few
    have byte : (UInt8.ofNat (32 * major + info)).toNat = 32 * major + info := by
      rw [UInt8.toNat_ofNat', Nat.mod_eq_of_lt (by omega)]
    constructor
    · intro same
      have : 32 * major + info = 0xF4 := by rw [← byte, same]; rfl
      omega
    · intro same
      have : 32 * major + info = 0xF5 := by rw [← byte, same]; rfl
      omega
  unfold head
  split
  · exact ⟨_, _, rfl, other length (by omega)⟩
  · repeat' split
    all_goals exact ⟨_, _, rfl, other _ (by omega)⟩

theorem token?_boolean (b : Bool) (rest : List UInt8) :
    token? ((if b then 0xF5 else 0xF4) :: rest) = some (.boolean b, rest) := by
  cases b <;> rfl

theorem token?_head {major length : Nat} (h : major < 6) (small : length < 0x100000000)
    (rest : List UInt8) : token? (head major length ++ rest) = content? major length rest := by
  obtain ⟨b, r, cons, noFalse, noTrue⟩ := head_cons h length
  have found := head?_head (by omega : major < 8) small rest
  rw [cons, List.cons_append] at found ⊢
  rw [token?, if_neg noFalse, if_neg noTrue, found, Option.bind_some]

theorem token?_text {s : String} (small : s.utf8ByteSize < 0x100000000) (rest : List UInt8) :
    token? (text s ++ rest) = some (.text s, rest) := by
  have size : s.toUTF8.data.toList.length = s.utf8ByteSize := rfl
  have valid : String.fromUTF8? ⟨s.toUTF8.data.toList.toArray⟩ = some s := dif_pos s.isValidUTF8
  rw [text, List.append_assoc, token?_head (by decide) small, content?, split?_append size,
    Option.bind_some, valid, Option.map_some]

/-! ## Items -/

/-- What an item is for, with all that is open around it.  So many items or entries of a container
follow the one that is awaited. -/
inductive Target where
  | whole
  | item (left : Nat) (items : List Tree) (outer : Target)
  | key (left : Nat) (entries : List (String × Tree)) (outer : Target)
  | entry (left : Nat) (entries : List (String × Tree)) (key : String) (outer : Target)

/-- A place between two tokens. -/
inductive Place where
  | awaiting (target : Target)
  | done (t : Tree)

/-- The place behind a whole item.  The last item of a container completes the container, and only
texts are keys. -/
def give (t : Tree) : Target → Option Place
  | .whole => some (.done t)
  | .item 0 items outer => give (.array (items ++ [t])) outer
  | .item (left + 1) items outer => some (.awaiting (.item left (items ++ [t]) outer))
  | .key left entries outer =>
    match t with
    | .text key => some (.awaiting (.entry left entries key outer))
    | _ => none
  | .entry 0 entries key outer => give (.map (entries ++ [(key, t)])) outer
  | .entry (left + 1) entries key outer =>
    some (.awaiting (.key left (entries ++ [(key, t)]) outer))

def step (target : Target) : Token → Option Place
  | .text s => give (.text s) target
  | .boolean b => give (.boolean b) target
  | .array 0 => give (.array []) target
  | .array (left + 1) => some (.awaiting (.item left [] target))
  | .map 0 => give (.map []) target
  | .map (left + 1) => some (.awaiting (.key left [] target))

/-- The tree that is read from a place on, and the bytes behind it. -/
def readOn? (place : Place) (s : List UInt8) : Option (Tree × List UInt8) :=
  match place with
  | .done t => some (t, s)
  | .awaiting target =>
    match h : token? s with
    | none => none
    | some (token, rest) =>
      have := token?_length h
      (step target token).bind (readOn? · rest)
  termination_by s.length

/-- The tree at the start of the bytes, and the bytes behind it. -/
def read? (s : List UInt8) : Option (Tree × List UInt8) := readOn? (.awaiting .whole) s

theorem readOn?_token {target : Target} {token : Token} (h : token? s = some (token, rest)) :
    readOn? (.awaiting target) s = (step target token).bind (readOn? · rest) := by
  rw [readOn?]
  split
  · next none => cases h.symm.trans none
  · next found =>
    cases h.symm.trans found
    rfl

/-! ## Trees -/

mutual

/-- No text and no container of the tree is as long as the limit. -/
def Below (limit : Nat) : Tree → Prop
  | .text s => s.utf8ByteSize < limit
  | .boolean _ => True
  | .array items => items.length < limit ∧ ItemsBelow limit items
  | .map entries => entries.length < limit ∧ EntriesBelow limit entries

def ItemsBelow (limit : Nat) : List Tree → Prop
  | [] => True
  | t :: items => Below limit t ∧ ItemsBelow limit items

def EntriesBelow (limit : Nat) : List (String × Tree) → Prop
  | [] => True
  | (k, t) :: entries => k.utf8ByteSize < limit ∧ Below limit t ∧ EntriesBelow limit entries

end

mutual

/-- A value is given to what it is for, whatever is open around it and whatever follows it. -/
theorem readOn?_value (t : Tree) (small : Below 0x100000000 t) (target : Target)
    (rest : List UInt8) :
    readOn? (.awaiting target) (value t ++ rest) = (give t target).bind (readOn? · rest) := by
  match t with
  | .text s => exact readOn?_token (token?_text small rest)
  | .boolean b => exact readOn?_token (token?_boolean b rest)
  | .array items =>
    have first := token?_head (by decide : 4 < 6) small.1 (array items ++ rest)
    rw [value, List.append_assoc, readOn?_token first]
    match items with
    | [] => rfl
    | t :: items =>
      exact readOn?_array (t :: items) (List.cons_ne_nil t items) small.2 [] target rest
  | .map entries =>
    have first := token?_head (by decide : 5 < 6) small.1 (map entries ++ rest)
    rw [value, List.append_assoc, readOn?_token first]
    match entries with
    | [] => rfl
    | e :: entries =>
      exact readOn?_map (e :: entries) (List.cons_ne_nil e entries) small.2 [] target rest

/-- The items of an array from one of them on. -/
theorem readOn?_array (items : List Tree) (more : items ≠ [])
    (small : ItemsBelow 0x100000000 items) (before : List Tree) (outer : Target)
    (rest : List UInt8) :
    readOn? (.awaiting (.item (items.length - 1) before outer)) (array items ++ rest) =
      (give (.array (before ++ items)) outer).bind (readOn? · rest) := by
  match items with
  | [] => exact absurd rfl more
  | [t] =>
    rw [array, array, List.append_nil, readOn?_value t small.1]
    rfl
  | t :: next :: items =>
    have others := readOn?_array (next :: items) (List.cons_ne_nil next items) small.2
      (before ++ [t]) outer rest
    rw [List.append_assoc, List.singleton_append] at others
    rw [array, List.append_assoc, readOn?_value t small.1, ← others]
    rfl

/-- The entries of a map from one of them on. -/
theorem readOn?_map (entries : List (String × Tree)) (more : entries ≠ [])
    (small : EntriesBelow 0x100000000 entries) (before : List (String × Tree)) (outer : Target)
    (rest : List UInt8) :
    readOn? (.awaiting (.key (entries.length - 1) before outer)) (map entries ++ rest) =
      (give (.map (before ++ entries)) outer).bind (readOn? · rest) := by
  match entries with
  | [] => exact absurd rfl more
  | [(k, t)] =>
    rw [map, map, List.append_nil, List.append_assoc, readOn?_token (token?_text small.1 _), step,
      give, Option.bind_some, readOn?_value t small.2.1]
    rfl
  | (k, t) :: next :: entries =>
    have others := readOn?_map (next :: entries) (List.cons_ne_nil next entries) small.2.2
      (before ++ [(k, t)]) outer rest
    rw [List.append_assoc, List.singleton_append] at others
    rw [map, List.append_assoc, List.append_assoc, readOn?_token (token?_text small.1 _), step,
      give, Option.bind_some, readOn?_value t small.2.1, ← others]
    rfl

end

/-! ## Documents -/

theorem read?_value_append (t : Tree) (small : Below 0x100000000 t) (rest : List UInt8) :
    read? (value t ++ rest) = some (t, rest) := by
  rw [read?, readOn?_value t small, give, Option.bind_some, readOn?]

/-- A document is read back from its bytes, whatever follows them.  So two documents have the same
bytes exactly if they are the same data, and the bytes of none begin those of another. -/
theorem read?_encode_append (doc : Document) (small : Below 0x100000000 doc.tree) :
    (∀ rest, read? (encode doc ++ rest) = some (doc.tree, rest)) ∧
      ∀ doc' : Document, Below 0x100000000 doc'.tree →
        (encode doc = encode doc' ↔ doc.tree = doc'.tree) ∧
          (encode doc <+: encode doc' → encode doc = encode doc') := by
  have reads := read?_value_append doc.tree small
  refine ⟨reads, fun doc' small' => ?_⟩
  have whole := read?_value_append doc'.tree small' []
  have goesOn : ∀ rest, encode doc ++ rest = encode doc' → doc.tree = doc'.tree ∧ rest = [] := by
    intro rest same
    have found := reads rest
    rw [List.append_nil] at whole
    rw [show value doc.tree ++ rest = value doc'.tree from same, whole] at found
    obtain ⟨trees, nothing⟩ := Prod.mk.inj (Option.some.inj found)
    exact ⟨trees.symm, nothing.symm⟩
  refine ⟨⟨fun same => ?_, fun same => ?_⟩, ?_⟩
  · exact (goesOn [] (by rw [List.append_nil, same])).1
  · rw [encode, encode, same]
  · rintro ⟨rest, same⟩
    rw [← same, (goesOn rest same).2, List.append_nil]

/-- A key with characters of two bytes, a text whose length has a byte of its own, and empty
containers. -/
def sampleDocument : Document :=
  [("größe", .text "a text of more than 23 bytes"),
    ("list", .sequence [.boolean true, .document []]),
    ("repositories", .repositories [.unknown "jcenter()", .named "maven" (.sequence [])])]

/-- A document that begins like the sample. -/
def shorterDocument : Document := [("größe", .text "a text of more than 23 bytes")]

theorem read?_encode_append_sampleDocument :
    Below 0x100000000 sampleDocument.tree ∧ Below 0x100000000 shorterDocument.tree ∧
      read? (encode sampleDocument ++ [0xA0]) = some (sampleDocument.tree, [0xA0]) ∧
      encode shorterDocument ≠ encode sampleDocument ∧
      ¬ encode shorterDocument <+: encode sampleDocument := by
  have small : Below 0x100000000 sampleDocument.tree := by
    simp +decide [Below, ItemsBelow, EntriesBelow, sampleDocument, Document.tree, entryTrees,
      Value.tree, sequenceTrees, repositoryTrees]
  have small' : Below 0x100000000 shorterDocument.tree := by
    simp +decide [Below, EntriesBelow, shorterDocument, Document.tree, entryTrees, Value.tree]
  have reads := read?_encode_append sampleDocument small
  have shorter := (read?_encode_append shorterDocument small').2 sampleDocument small
  have other : encode shorterDocument ≠ encode sampleDocument := by
    intro same
    have trees := shorter.1.1 same
    simp [shorterDocument, sampleDocument, Document.tree, entryTrees] at trees
  exact ⟨small, small', reads.1 [0xA0], other, fun begins => other (shorter.2 begins)⟩

end BuildScript.Cbor
