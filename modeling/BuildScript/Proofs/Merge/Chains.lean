import BuildScript.Proofs.Blocks
import BuildScript.Proofs.Grammar.Reading
import BuildScript.Proofs.Merge.Algebra
import BuildScript.Proofs.Merge.Lines

/-!
# Repeated chains of blocks

A chain of blocks, each in the one before it, ends in a block of records: of dependencies or of
repositories.  When a script has the same chain twice, the records of a bare block of records are put
behind each other, but in a chain of one enclosing block or more a merge replaces them.
-/

namespace BuildScript

open Grammar Document

/-! ## Blocks of records -/

inductive RecordKind where
  | dependencies
  | repositories

namespace RecordKind

def key : RecordKind → String
  | dependencies => "dependencies"
  | repositories => "repositories"

def word (kind : RecordKind) : Key where
  chars := kind.key.toList
  nonempty := by cases kind <;> decide
  inWord := by cases kind <;> decide
  notKeyword := by cases kind <;> decide
  notLineComment := by cases kind <;> decide
  notBlockComment := by cases kind <;> decide

abbrev Item : RecordKind → Type
  | dependencies => Dependency
  | repositories => Repository Value

def value : (kind : RecordKind) → List kind.Item → Value
  | dependencies => .dependencies
  | repositories => .repositories

variable {kind : RecordKind}

theorem name_word : kind.word.name = kind.key := by simp [word, Key.name]

theorem value_injective : Function.Injective kind.value := by
  cases kind with
  | dependencies => exact fun _ _ same => Value.dependencies.inj same
  | repositories => exact fun _ _ same => Value.repositories.inj same

theorem value_ne_document (items : List kind.Item) (doc : Document) :
    kind.value items ≠ .document doc := by
  cases kind <;> simp [value]

/-- The records of a later block are put behind those of an earlier one. -/
theorem joinedValue_value (items more : List kind.Item) :
    joinedValue (some (kind.value items)) (kind.value more) = kind.value (items ++ more) := by
  cases kind <;> rfl

end RecordKind

/-- A block of records with what is read from it. -/
structure RecordBlock (nesting : Nesting) (kind : RecordKind) where
  indent : Indent
  separators : Separators
  body : BlockBody nesting .script kind.key
  items : List kind.Item
  holds : body.value = kind.value items
  tail : Tail

def RecordBlock.text {nesting : Nesting} {kind : RecordKind} (block : RecordBlock nesting kind) :
    List Char :=
  block.indent.1 ++ (kind.key.toList ++
    (block.separators.1 ++ '{' :: (block.body.chars ++ '}' :: block.tail.1)))

/-- Inside so many blocks the text, at the start of a line, puts a value under a key. -/
def Puts (limit level : Nat) (s : List Char) (key : String) (v : Value) : Prop :=
  ∀ (depth : Nat) (outer : List Frame) (doc : Document) (rest : List Char),
    depth + outer.length = level →
      ReadsTo ⟨limit, depth⟩ outer doc (s ++ rest) (doc.joinBlock key v) rest

theorem puts_records {limit level : Nat} {kind : RecordKind}
    (block : RecordBlock ⟨limit, level⟩ kind) :
    Puts limit level block.text kind.key (kind.value block.items) := by
  rintro depth outer doc rest rfl
  refine ⟨doc.joinBlock kind.key (kind.value block.items), .done, rfl, ?_⟩
  have brace : EndOfKey ('{' :: (block.body.chars ++ '}' :: (block.tail.1 ++ rest))) := by
    intro c hc
    cases hc
    decide
  have named : kind.key ≠ "" := RecordKind.name_word ▸ kind.word.name_ne_empty
  have opens : (kind.word.line block.separators).blockKey? = some kind.key :=
    RecordKind.name_word ▸ kind.word.blockKey?_line block.separators
  have text : block.text ++ rest = block.indent.1 ++ (kind.word.chars ++
      (block.separators.1 ++ '{' :: (block.body.chars ++ '}' :: (block.tail.1 ++ rest)))) := by
    simp [RecordBlock.text, RecordKind.word]
  rw [text, read_key block.indent kind.word (endOfKey_separators block.separators brace),
    read_key_separators, read_blockBody opens, read_tail, block.holds]
  simp [ScopeKind.storeBlock, named]

/-! ## Layers -/

/-- Lines in front of a line, if there are any. -/
abbrev LinesBefore := Option ((Σ commented, Script commented) × LineBreak)

namespace LinesBefore

def text : LinesBefore → List Char
  | none => []
  | some (lines, lineBreak) => lines.2.text ++ lineBreak.text

def meaning (doc : Document) : LinesBefore → Document
  | none => doc
  | some (lines, _) => lines.2.meaning doc

def keys : LinesBefore → List String
  | none => []
  | some (lines, _) => lines.2.keys

def depth : LinesBefore → Nat
  | none => 0
  | some (lines, _) => lines.2.depth

end LinesBefore

/-- Lines behind a line, if there are any. -/
abbrev LinesBehind (commented : Bool) := Option (LineBreak × Script commented)

namespace LinesBehind

variable {commented : Bool}

def text : LinesBehind commented → List Char
  | none => []
  | some (lineBreak, lines) => lineBreak.text ++ lines.text

def meaning (doc : Document) : LinesBehind commented → Document
  | none => doc
  | some (_, lines) => lines.meaning doc

def keys : LinesBehind commented → List String
  | none => []
  | some (_, lines) => lines.keys

def depth : LinesBehind commented → Nat
  | none => 0
  | some (_, lines) => lines.depth

end LinesBehind

variable {nesting : Nesting} {doc : Document} {outer : List Frame}

theorem readsTo_before (before : LinesBefore) {s rest : List Char} {final : Document}
    (room : nesting.depth + outer.length + before.depth ≤ nesting.limit)
    (next : ReadsTo nesting outer (before.meaning doc) s final rest) :
    ReadsTo nesting outer doc (before.text ++ s) final rest := by
  cases before with
  | none => exact next
  | some before =>
    obtain ⟨⟨commented, lines⟩, lineBreak⟩ := before
    have first := readsTo_script lines doc outer (lineBreak.text ++ s)
      (EndOfLine.lineBreak commented lineBreak s) room
    simpa only [LinesBefore.text, List.append_assoc] using first.lineBreak lineBreak next

theorem readsTo_behind {commented : Bool} (behind : LinesBehind commented) {s rest : List Char}
    {stored : Document} (ends : EndOfLine commented rest)
    (room : nesting.depth + outer.length + behind.depth ≤ nesting.limit)
    (h : ReadsTo nesting outer doc s stored (behind.text ++ rest)) :
    ReadsTo nesting outer doc s (behind.meaning stored) rest := by
  cases behind with
  | none => exact h
  | some behind =>
    obtain ⟨lineBreak, lines⟩ := behind
    rw [LinesBehind.text, List.append_assoc] at h
    exact h.lineBreak lineBreak (readsTo_script lines stored outer rest ends room)

/-- A block of a key with the lines around the next block of the chain. -/
structure Layer where
  indent : Indent
  key : BlockKey
  separators : Separators
  before : LinesBefore
  behind : LinesBehind false
  tail : Tail

namespace Layer

def around (layer : Layer) (inner : List Char) : List Char :=
  layer.indent.1 ++ (layer.key.chars ++ (layer.separators.1 ++ '{' ::
    (layer.before.text ++ (inner ++ layer.behind.text) ++ '}' :: layer.tail.1)))

/-- The document of the block, with the value of the next block of the chain under its key. -/
def document (layer : Layer) (key : String) (v : Value) : Document :=
  layer.behind.meaning ((layer.before.meaning []).joinBlock key v)

def depth (layer : Layer) : Nat := max layer.before.depth layer.behind.depth

/-- No other line of the block puts a value under the key. -/
def Leaves (layer : Layer) (key : String) : Prop :=
  key ∉ layer.before.keys ∧ key ∉ layer.behind.keys

end Layer

/-! ## Chains -/

/-- The key of the first block of the chain. -/
def firstKey (last : String) : List Layer → String
  | [] => last
  | layer :: _ => layer.key.name

/-- The value of the first block of the chain, whose last block has the given key and value. -/
def chainValue (last : String) (v : Value) : List Layer → Value
  | [] => v
  | layer :: layers =>
    .document (layer.document (firstKey last layers) (chainValue last v layers))

def chainText (inner : List Char) (layers : List Layer) : List Char :=
  layers.foldr Layer.around inner

def layersDepth : List Layer → Nat
  | [] => 0
  | layer :: layers => max layer.depth (layersDepth layers) + 1

/-- No line around the chain puts a value under a key of it. -/
def LeavesChain (last : String) : List Layer → Prop
  | [] => True
  | layer :: layers => layer.Leaves (firstKey last layers) ∧ LeavesChain last layers

theorem puts_layer {limit level : Nat} (layer : Layer) {inner : List Char} {key : String} {v : Value}
    (room : level + 1 + layer.depth ≤ limit) (h : Puts limit (level + 1) inner key v) :
    Puts limit level (layer.around inner) layer.key.name (.document (layer.document key v)) := by
  rintro depth outer doc rest rfl
  rw [Layer.depth] at room
  let frame : Frame := ⟨layer.key.name, .script, doc⟩
  have brace : EndOfLine false ('}' :: (layer.tail.1 ++ rest)) :=
    fun c hc => .inr ⟨rfl, by cases hc; rfl⟩
  have inside : depth + (frame :: outer).length = depth + outer.length + 1 := rfl
  have roomBefore : depth + (frame :: outer).length + layer.before.depth ≤ limit := by omega
  have roomBehind : depth + (frame :: outer).length + layer.behind.depth ≤ limit := by omega
  have body : ReadsTo ⟨limit, depth⟩ (frame :: outer) []
      ((layer.before.text ++ (inner ++ layer.behind.text)) ++ '}' :: (layer.tail.1 ++ rest))
      (layer.document key v) ('}' :: (layer.tail.1 ++ rest)) := by
    simpa only [List.append_assoc, Layer.document] using readsTo_before layer.before roomBefore
      (readsTo_behind layer.behind brace roomBehind (h depth _ _ _ inside))
  have roomHere : depth + outer.length < limit := by omega
  have block := readsTo_block layer.indent layer.key layer.separators layer.tail roomHere body
  simpa only [Layer.around, List.append_assoc, List.cons_append] using block

theorem puts_chain {limit level : Nat} {layers : List Layer} {inner : List Char} {last : String}
    {v : Value} (room : level + layersDepth layers ≤ limit)
    (h : Puts limit (layers.length + level) inner last v) :
    Puts limit level (chainText inner layers) (firstKey last layers) (chainValue last v layers) := by
  induction layers generalizing level with
  | nil => exact Nat.zero_add level ▸ h
  | cons layer layers ih =>
    rw [layersDepth] at room
    rw [List.length_cons, Nat.succ_add_eq_add_succ] at h
    exact puts_layer layer (by omega) (ih (by omega) h)

/-! ## Values at the end of a chain -/

variable {last k : String} {v w : Value}

theorem get?_before (before : LinesBefore) (other : k ∉ before.keys) (doc : Document) :
    get? k (before.meaning doc) = get? k doc := by
  cases before with
  | none => rfl
  | some before => exact get?_script before.1.2 doc other

theorem get?_behind {commented : Bool} (behind : LinesBehind commented) (other : k ∉ behind.keys)
    (doc : Document) : get? k (behind.meaning doc) = get? k doc := by
  cases behind with
  | none => rfl
  | some behind => exact get?_script behind.2 doc other

theorem nodup_keys_before (before : LinesBefore) (unique : doc.keys.Nodup) :
    (before.meaning doc).keys.Nodup := by
  cases before with
  | none => exact unique
  | some before => exact nodup_keys_script before.1.2 unique

theorem nodup_keys_behind {commented : Bool} (behind : LinesBehind commented)
    (unique : doc.keys.Nodup) : (behind.meaning doc).keys.Nodup := by
  cases behind with
  | none => exact unique
  | some behind => exact nodup_keys_script behind.2 unique

theorem joinedValue_none (v : Value) : joinedValue none v = v := by
  cases v <;> rfl

theorem Layer.get?_document (layer : Layer) (leaves : layer.Leaves k) (v : Value) :
    get? k (layer.document k v) = some v := by
  rw [Layer.document, get?_behind _ leaves.2, get?_joinBlock, if_pos rfl, get?_before _ leaves.1,
    get?, joinedValue_none]

theorem Layer.nodup_keys_document (layer : Layer) (k : String) (v : Value) :
    (layer.document k v).keys.Nodup := by
  have empty : (keys []).Nodup := List.nodup_nil
  exact nodup_keys_behind _ (nodup_keys_joinBlock (nodup_keys_before _ empty) k v)

/-- The keys of the blocks of a chain, without that of the last one. -/
def layerKeys (layers : List Layer) : List String := layers.map fun layer => layer.key.name

theorem firstKey_eq {layers others : List Layer} (same : layerKeys layers = layerKeys others) :
    firstKey last layers = firstKey last others := by
  cases layers with
  | nil =>
    cases others with
    | nil => rfl
    | cons other others => cases same
  | cons layer layers =>
    cases others with
    | nil => cases same
    | cons other others => exact (List.cons.inj same).1

/-- Where the first chain has been merged with a second one, the value of the second is at its end. -/
theorem getPath?_merged_chains {layers others : List Layer}
    (same : layerKeys layers = layerKeys others) (leaves : LeavesChain last layers)
    (leaves' : LeavesChain last others) (single : ∀ inner, w ≠ .document inner)
    (found : get? (firstKey last layers) doc =
      mergedValue? (some (chainValue last v layers)) (some (chainValue last w others))) :
    getPath? doc (layerKeys layers ++ [last]) = some w := by
  induction layers generalizing others doc with
  | nil =>
    cases others with
    | cons other others => cases same
    | nil => exact found.trans (mergedValue?_of_not_document (.inr single))
  | cons layer layers ih =>
    cases others with
    | nil => cases same
    | cons other others =>
      have next : firstKey last layers = firstKey last others :=
        firstKey_eq (List.cons.inj same).2
      have inner : get? (firstKey last layers)
            (merge (layer.document (firstKey last layers) (chainValue last v layers))
              (other.document (firstKey last others) (chainValue last w others))) =
          mergedValue? (some (chainValue last v layers)) (some (chainValue last w others)) := by
        rw [get?_merge _ (other.nodup_keys_document _ _), layer.get?_document leaves.1, next,
          other.get?_document leaves'.1]
      exact (getPath?_cons found (by simp)).trans
        (ih (List.cons.inj same).2 leaves.2 leaves'.2 inner)

/-! ## Scripts -/

/-- A chain around a block of records. -/
structure Chain (limit : Nat) (kind : RecordKind) where
  layers : List Layer
  block : RecordBlock ⟨limit, layers.length⟩ kind
  room : layersDepth layers ≤ limit
  leaves : LeavesChain kind.key layers

namespace Chain

variable {limit : Nat} {kind : RecordKind} (chain : Chain limit kind)

def text : List Char := chainText chain.block.text chain.layers

/-- The keys that lead to the block of records. -/
def keys : List String := layerKeys chain.layers

def firstKey : String := BuildScript.firstKey kind.key chain.layers

def value : Value := chainValue kind.key (kind.value chain.block.items) chain.layers

theorem puts : Puts limit 0 chain.text chain.firstKey chain.value :=
  puts_chain (by simpa using chain.room) (puts_records chain.block)

end Chain

/-- A script that has a chain with the same keys twice.  No other line around it puts a value under
its first key. -/
structure RepeatedChain (limit : Nat) (kind : RecordKind) (commented : Bool) where
  before : LinesBefore
  first : Chain limit kind
  lineBreak : LineBreak
  between : LinesBefore
  second : Chain limit kind
  behind : LinesBehind commented
  same : first.keys = second.keys
  leaves : first.firstKey ∉ before.keys ++ between.keys ++ behind.keys
  room : max before.depth (max between.depth behind.depth) ≤ limit

namespace RepeatedChain

variable {limit : Nat} {kind : RecordKind} {commented : Bool}
  (script : RepeatedChain limit kind commented)

def text : List Char :=
  script.before.text ++ (script.first.text ++ (script.lineBreak.text ++ (script.between.text ++
    (script.second.text ++ script.behind.text))))

def meaning : Document :=
  script.behind.meaning ((script.between.meaning ((script.before.meaning []).joinBlock
    script.first.firstKey script.first.value)).joinBlock script.second.firstKey script.second.value)

theorem readScope_text :
    readScope ⟨limit, 0⟩ .script script.text = .closed script.meaning [] := by
  have room : 0 + 0 + max script.before.depth (max script.between.depth script.behind.depth) ≤
      limit := by simpa using script.room
  have ends : EndOfLine commented [] := fun c hc => by cases hc
  have last : ∀ doc, ReadsTo ⟨limit, 0⟩ [] doc (script.second.text ++ (script.behind.text ++ []))
      (script.behind.meaning (doc.joinBlock script.second.firstKey script.second.value)) [] :=
    fun doc => readsTo_behind script.behind ends (by dsimp only [List.length_nil]; omega)
      (script.second.puts 0 [] doc (script.behind.text ++ []) rfl)
  have first := script.first.puts 0 [] (script.before.meaning []) (script.lineBreak.text ++
    (script.between.text ++ (script.second.text ++ (script.behind.text ++ [])))) rfl
  have whole : ReadsTo ⟨limit, 0⟩ [] [] (script.text ++ []) script.meaning [] := by
    simpa only [text, meaning, List.append_assoc] using
      readsTo_before script.before (by dsimp only [List.length_nil]; omega)
        (first.lineBreak script.lineBreak
          (readsTo_before script.between (by dsimp only [List.length_nil]; omega) (last _)))
  rw [List.append_nil] at whole
  exact whole.readScope_eq

/-- What the script holds under the first key of the chain. -/
theorem get?_meaning :
    get? script.first.firstKey script.meaning =
      some (joinedValue (some script.first.value) script.second.value) := by
  obtain ⟨⟨before, between⟩, behind⟩ : (script.first.firstKey ∉ script.before.keys ∧
      script.first.firstKey ∉ script.between.keys) ∧
      script.first.firstKey ∉ script.behind.keys := by
    simpa [not_or, and_assoc] using script.leaves
  have key : script.second.firstKey = script.first.firstKey := (firstKey_eq script.same).symm
  rw [meaning, get?_behind _ behind, key, get?_joinBlock, if_pos rfl, get?_before _ between,
    get?_joinBlock, if_pos rfl, get?_before _ before, get?, joinedValue_none]

/-- The records at the end of the chain. -/
def records : List kind.Item :=
  if script.first.keys = [] then script.first.block.items ++ script.second.block.items
  else script.second.block.items

theorem getPath?_meaning :
    getPath? script.meaning (script.first.keys ++ [kind.key]) =
      some (kind.value script.records) := by
  have found := script.get?_meaning
  obtain ⟨_, ⟨layers, block, room, leaves⟩, _, _, ⟨others, block', room', leaves'⟩, _, same, _, _⟩ :=
    script
  cases layers with
  | nil =>
    cases others with
    | cons other others => cases same
    | nil => exact found.trans (congrArg some (RecordKind.joinedValue_value _ _))
  | cons layer layers =>
    cases others with
    | nil => cases same
    | cons other others =>
      exact getPath?_merged_chains same leaves leaves'
        (RecordKind.value_ne_document block'.items) found

/-- A script that has the same chain of blocks around records twice keeps the records of both, the
first before the second, if there is no block around them.  In a chain of one block or more only those
of the second are left.  So none are lost exactly if there is no block around them or no record in the
first. -/
theorem records_of_repeatedChain (options : ParseOptions)
    (script : RepeatedChain options.maxDepth kind commented) (input : String)
    (text : dropByteOrderMark input.toList = script.text)
    (size : input.utf8ByteSize ≤ options.maxInputBytes) :
    ∃ doc, parseText options input = .ok doc ∧
      getPath? doc (script.first.keys ++ [kind.key]) = some (kind.value script.records) ∧
      (getPath? doc (script.first.keys ++ [kind.key]) =
          some (kind.value (script.first.block.items ++ script.second.block.items)) ↔
        script.first.keys = [] ∨ script.first.block.items = []) := by
  refine ⟨script.meaning, parseText_of_closed size (text ▸ script.readScope_text),
    script.getPath?_meaning, ?_⟩
  · rw [getPath?_meaning, Option.some_inj, RecordKind.value_injective.eq_iff, records]
    split
    · next bare => simp [bare]
    · next nested =>
      rw [List.self_eq_append_left]
      exact ⟨.inr, fun h => h.resolve_left nested⟩

/-- The block `lib` twice, with other lines around the dependencies. -/
def nestedSample : RepeatedChain 4 .dependencies false :=
  let blank : Indent := ⟨[' '], isIndent_of_mem_space⟩
  let space : Separators := ⟨[' '], isDelimiter_of_mem_space⟩
  let gap : Separator := ⟨[' '], space_ne_nil, isDelimiter_of_mem_space⟩
  let lib : BlockKey :=
    { chars := ['l', 'i', 'b'], nonempty := by decide, inWord := by decide, notKeyword := by decide,
      notLineComment := by decide, notBlockComment := by decide, notDependencies := by decide,
      notRepositories := by decide }
  let y : Key := ⟨['y'], by decide, by decide, by decide, by decide, by decide⟩
  let setting : ScriptLine false :=
    .setting blank y gap ⟨['2'], by decide, by decide, by rintro c ⟨⟩; decide⟩
  { before := some (⟨true, .last (.comment Run.none ⟨" a".toList, by decide⟩)⟩, .lineFeed)
    first :=
      { layers := [⟨Run.none, lib, space,
          some (⟨false, .cons (.blank Run.none) .lineFeed (.last setting)⟩, .lineFeed),
          some (.lineFeed, .last (.blank Run.none)), Run.none⟩]
        block := ⟨blank, space, ⟨" k 'g:a:1' ".toList, .dependencies [⟨"g", "a", "1", "k", []⟩],
          by decide, by with_unfolding_all rfl⟩, [⟨"g", "a", "1", "k", []⟩], rfl, Run.none⟩
        room := by decide
        leaves := ⟨by constructor <;> decide, trivial⟩ }
    lineBreak := .lineFeed
    between := none
    second :=
      { layers := [⟨Run.none, lib, space, none, none, Run.none⟩]
        block := ⟨blank, space, ⟨" k 'g:b:2' ".toList, .dependencies [⟨"g", "b", "2", "k", []⟩],
          by decide, by with_unfolding_all rfl⟩, [⟨"g", "b", "2", "k", []⟩], rfl, Run.none⟩
        room := by decide
        leaves := ⟨by constructor <;> decide, trivial⟩ }
    behind := some (.lineFeed, .last setting)
    same := rfl
    leaves := by decide
    room := by decide }

/-- Two blocks of repositories without blocks around them. -/
def bareSample : RepeatedChain 4 .repositories false :=
  let space : Separators := ⟨[' '], isDelimiter_of_mem_space⟩
  { before := none
    first := ⟨[], ⟨Run.none, space, ⟨" a() ".toList, .repositories [.unknown "a()"], by decide,
      by with_unfolding_all rfl⟩, [.unknown "a()"], rfl, Run.none⟩, by decide, trivial⟩
    lineBreak := .both
    between := none
    second := ⟨[], ⟨Run.none, space, ⟨" b 'c' ".toList, .repositories [.named "b" (.text "c")],
      by decide, by with_unfolding_all rfl⟩, [.named "b" (.text "c")], rfl, Run.none⟩, by decide,
      trivial⟩
    behind := none
    same := rfl
    leaves := by decide
    room := by decide }

theorem records_of_samples :
    (∃ doc, parseText ⟨4, 256, none⟩
          ("// a\nlib \x7b\n y 2\n dependencies \x7b k 'g:a:1' \x7d\n\x7d\n" ++
            "lib \x7b dependencies \x7b k 'g:b:2' \x7d\x7d\n y 2") = .ok doc ∧
        getPath? doc ["lib", "dependencies"] = some (.dependencies [⟨"g", "b", "2", "k", []⟩])) ∧
      ∃ doc, parseText ⟨4, 256, none⟩ "repositories \x7b a() \x7d\r\nrepositories \x7b b 'c' \x7d" =
          .ok doc ∧
        getPath? doc ["repositories"] =
          some (.repositories [.unknown "a()", .named "b" (.text "c")]) := by
  constructor
  · obtain ⟨doc, run, records, -⟩ := records_of_repeatedChain ⟨4, 256, none⟩ nestedSample
      ("// a\nlib \x7b\n y 2\n dependencies \x7b k 'g:a:1' \x7d\n\x7d\n" ++
        "lib \x7b dependencies \x7b k 'g:b:2' \x7d\x7d\n y 2") (by decide) (by decide)
    exact ⟨doc, run, records⟩
  · obtain ⟨doc, run, records, -⟩ := records_of_repeatedChain ⟨4, 256, none⟩ bareSample
      "repositories \x7b a() \x7d\r\nrepositories \x7b b 'c' \x7d" (by decide) (by decide)
    exact ⟨doc, run, records⟩

/-- The block `a` twice around dependencies, with nothing else in it. -/
def replacedSample : RepeatedChain 2 .dependencies false :=
  let space : Separators := ⟨[' '], isDelimiter_of_mem_space⟩
  let a : BlockKey :=
    { chars := List.singleton 'a', nonempty := by decide, inWord := by decide,
      notKeyword := by decide, notLineComment := by decide, notBlockComment := by decide,
      notDependencies := by decide, notRepositories := by decide }
  let around : Layer :=
    ⟨Run.none, a, space, some (⟨false, .last (.blank Run.none)⟩, .lineFeed),
      some (.lineFeed, .last (.blank Run.none)), Run.none⟩
  { before := none
    first :=
      { layers := [around]
        block := ⟨Run.none, space, ⟨"\ncompile 'g:a:1'\n".toList,
          .dependencies [⟨"g", "a", "1", "compile", []⟩], by decide, by with_unfolding_all rfl⟩,
          [⟨"g", "a", "1", "compile", []⟩], rfl, Run.none⟩
        room := by decide
        leaves := ⟨by constructor <;> decide, trivial⟩ }
    lineBreak := .lineFeed
    between := none
    second :=
      { layers := [around]
        block := ⟨Run.none, space, ⟨"\ncompile 'g:b:2'\n".toList,
          .dependencies [⟨"g", "b", "2", "compile", []⟩], by decide, by with_unfolding_all rfl⟩,
          [⟨"g", "b", "2", "compile", []⟩], rfl, Run.none⟩
        room := by decide
        leaves := ⟨by constructor <;> decide, trivial⟩ }
    behind := none
    same := by decide
    leaves := by decide
    room := by decide }

/-- The dependency of the first of two equal blocks is lost. -/
theorem nested_records_are_replaced :
    ∃ doc, parseText ⟨2, 128, none⟩
        ("a \x7b\ndependencies \x7b\ncompile 'g:a:1'\n\x7d\n\x7d\n" ++
          "a \x7b\ndependencies \x7b\ncompile 'g:b:2'\n\x7d\n\x7d") = .ok doc ∧
      getPath? doc ["a", "dependencies"] = some (.dependencies [⟨"g", "b", "2", "compile", []⟩]) ∧
      getPath? doc ["a", "dependencies"] ≠
        some (.dependencies [⟨"g", "a", "1", "compile", []⟩, ⟨"g", "b", "2", "compile", []⟩]) := by
  have records : getPath? replacedSample.meaning ["a", "dependencies"] =
      some (.dependencies [⟨"g", "b", "2", "compile", []⟩]) := replacedSample.getPath?_meaning
  have text : dropByteOrderMark ("a \x7b\ndependencies \x7b\ncompile 'g:a:1'\n\x7d\n\x7d\n" ++
      "a \x7b\ndependencies \x7b\ncompile 'g:b:2'\n\x7d\n\x7d").toList =
        replacedSample.text := by decide
  refine ⟨replacedSample.meaning,
    parseText_of_closed (by decide) (text ▸ replacedSample.readScope_text), records, ?_⟩
  simp [records]

end RepeatedChain

end BuildScript
