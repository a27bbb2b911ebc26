import BuildScript.Skip
import BuildScript.Setting
import BuildScript.Repository
import BuildScript.Dependency.Declaration

/-!
# Scopes

A scope is a script or the body of a block.  It is read line by line; each line gives at most one
key with a value.  A `{` opens the block of the key before it, a `}` closes the innermost block,
and the end of the text closes every block that is open.

The reader keeps the scopes around the current one on a stack and moves from one state to the next.
Every step takes at least one character (`step_suffix`), so reading ends for every text.
-/

namespace BuildScript

open Text

/-! ## Kinds of scopes -/

inductive ScopeKind where
  /-- A script, or a block in it. -/
  | script
  /-- The body of a `repositories` block. -/
  | repositories
  /-- A block in a `repositories` block. -/
  | repository
  deriving DecidableEq

namespace ScopeKind

/-- Calls and keys without a value count: in repositories, bare calls are the entries. -/
def keepsCalls : ScopeKind → Bool
  | script => false
  | repositories => true
  | repository => true

/-- The kind of the block of a key. -/
def ofBlock (outer : ScopeKind) (key : String) : ScopeKind :=
  if key = "repositories" then repositories
  else match outer with
    | script => script
    | repositories => repository
    | repository => repository

/-- What a finished scope is as a value. -/
def value (kind : ScopeKind) (doc : Document) : Value :=
  match kind with
  | repositories => .repositories (repositoryEntries doc)
  | _ => .document doc

/-- Store the value of a block.  A block without a key is dropped.  Repeated blocks are separate
entries in repositories and join elsewhere. -/
def storeBlock (kind : ScopeKind) (key : String) (value : Value) (doc : Document) : Document :=
  if key = "" then doc
  else match kind with
    | repositories => doc.add key value
    | _ => doc.joinBlock key value

/-- Store the value of a setting.  A blank one counts only where calls count. -/
def storeSetting (kind : ScopeKind) (key raw : String) (doc : Document) : Document :=
  if key = "" || (!kind.keepsCalls && allBlank raw.toList) then doc
  else doc.add key (classify raw.toList)

end ScopeKind

/-! ## States -/

/-- How far a line is read. -/
inductive Line where
  /-- In the key. -/
  | key (token : String)
  /-- Behind the key, in the text of its value. -/
  | value (name raw : String)
  /-- Its result is known and the rest of it does not count. -/
  | done

/-- The document with what a line has given when it ends. -/
def Line.store (kind : ScopeKind) (doc : Document) : Line → Document
  | .key token => kind.storeSetting token "" doc
  | .value name raw => kind.storeSetting name raw doc
  | .done => doc

/-- A scope whose block under `key` is being read. -/
structure Frame where
  key : String
  kind : ScopeKind
  doc : Document

structure State where
  kind : ScopeKind
  doc : Document
  line : Line
  outer : List Frame

namespace State

/-- The start of a scope without scopes around it. -/
def start (kind : ScopeKind) : State := ⟨kind, [], .key "", []⟩

/-- The state at the start of the next line. -/
def newLine (st : State) : State :=
  { st with doc := st.line.store st.kind st.doc, line := .key "" }

/-- The document of the current scope as it is when the scope ends here. -/
def finished (st : State) : Document := st.line.store st.kind st.doc

/-- The state after the current scope, which was the block of the frame. -/
def leave (st : State) (frame : Frame) (outer : List Frame) : State :=
  let value := st.kind.value st.finished
  ⟨frame.kind, frame.kind.storeBlock frame.key value frame.doc, .done, outer⟩

/-- The state at the start of the block of a key. -/
def enter (st : State) (key : String) : State :=
  ⟨st.kind.ofBlock key, [], .key "", ⟨key, st.kind, st.doc⟩ :: st.outer⟩

/-- The state after a block with the given value. -/
def withBlock (st : State) (key : String) (value : Value) : State :=
  { st with doc := st.kind.storeBlock key value st.doc, line := .done }

end State

/-- The document of the outermost scope when the text ends. -/
def unwind (doc : Document) (kind : ScopeKind) : List Frame → Document
  | [] => doc
  | frame :: outer =>
    unwind (frame.kind.storeBlock frame.key (kind.value doc) frame.doc) frame.kind outer

/-! ## Steps -/

/-- The limit on nesting, and the number of blocks around the scope that is read. -/
structure Nesting where
  limit : Nat
  depth : Nat

/-- What comes of a step. -/
inductive Step where
  /-- Reading goes on. -/
  | next (state : State) (rest : List Char)
  /-- A `}` ended the scope. -/
  | closed (doc : Document) (rest : List Char)
  /-- A `{` before this text would exceed the limit on nesting. -/
  | tooDeep (rest : List Char)

/-- The `{` of the block of a key, and what follows it. -/
def openBlock (nesting : Nesting) (st : State) (key : String) (r : List Char) : Step :=
  if nesting.limit ≤ nesting.depth + st.outer.length then .tooDeep r
  else if key = "dependencies" then
    let (declarations, rest) := blockDependencies r
    .next (st.withBlock key (.dependencies declarations)) rest
  else .next (st.enter key) (margin r)

/-- The `}` of the current scope, and what follows it.  A `}` outside every block is dropped. -/
def closeBlock (nesting : Nesting) (st : State) (r : List Char) : Step :=
  match st.outer with
  | frame :: outer => .next (st.leave frame outer) r
  | [] => if nesting.depth = 0 then .next st.newLine (margin r) else .closed st.finished r

/-- A `(` in a key that holds no calls.  The call goes with what stands before it, unless a `{`
follows it and makes it the key of a block. -/
def callStep (st : State) (token : String) (s : List Char) : Step :=
  let rest := skipCall s
  match skipIndent rest with
  | '{' :: r =>
    let call := String.ofList (s.take (s.length - rest.length))
    .next { st with line := .key (token ++ call) } ('{' :: r)
  | _ => .next { st with line := .key "" } rest

/-- A character in a key. -/
def keyStep (st : State) (token : String) (c : Char) (r : List Char) : Step :=
  if c == '(' then
    if token = "if" then .next { st with line := .done } (skipConditional (c :: r))
    else if st.kind.keepsCalls then .next { st with line := .key (token.push c) } r
    else callStep st token (c :: r)
  else if isDelimiter c then
    if token = "" then .next st r
    else if token = "if" then .next { st with line := .done } (skipConditional (c :: r))
    else if token = "else" then .next { st with line := .done } (skipAlternative (c :: r))
    else if token = "def" then
      match definition (c :: r) with
      | (some name, rest) => .next { st with line := .value (String.ofList name) "" } rest
      | (none, rest) => .next { st with line := .done } rest
    else .next { st with line := .value token "" } r
  else .next { st with line := .key (token.push c) } r

/-- A character in the text of a value. -/
def valueStep (st : State) (key raw : String) (c : Char) (r : List Char) : Step :=
  if raw = "" && isDelimiter c then .next st r
  else if raw = "" && c == '[' then
    let (items, rest) := listItems r
    let doc := if key = "" then st.doc else st.doc.add key (.sequence items)
    .next { st with doc := doc, line := .done } rest
  else .next { st with line := .value key (raw.push c) } r

def step (nesting : Nesting) (st : State) (c : Char) (r : List Char) : Step :=
  if isLineBreak c then .next st.newLine (margin r)
  else if c == '}' then closeBlock nesting st r
  else match st.line with
    | .done => .next st r
    | .key token =>
      if c == '{' then
        if token = "else" then .next { st with line := .done } (skipAlternative (c :: r))
        else openBlock nesting st token r
      else keyStep st token c r
    | .value key raw =>
      if c == '{' then openBlock nesting st key r else valueStep st key raw c r

/-! ## Reading -/

/-- The text that is left after a step. -/
def Step.rest : Step → List Char
  | .next _ rest => rest
  | .closed _ rest => rest
  | .tooDeep rest => rest

theorem openBlock_suffix (nesting : Nesting) (st : State) (key : String) (r : List Char) :
    (openBlock nesting st key r).rest <:+ r := by
  unfold openBlock
  split
  · exact List.suffix_refl r
  · split
    · exact blockDependencies_suffix r
    · exact margin_suffix r

theorem closeBlock_suffix (nesting : Nesting) (st : State) (r : List Char) :
    (closeBlock nesting st r).rest <:+ r := by
  unfold closeBlock
  split
  · exact List.suffix_refl r
  · split
    · exact margin_suffix r
    · exact List.suffix_refl r

theorem callStep_suffix (st : State) (token : String) (r : List Char) :
    (callStep st token ('(' :: r)).rest <:+ r := by
  have call := skipCall_paren_suffix r
  simp only [callStep]
  split
  · next h => exact (h ▸ skipIndent_suffix (skipCall ('(' :: r))).trans call
  · exact call

theorem keyStep_suffix (st : State) (token : String) (c : Char) (r : List Char) :
    (keyStep st token c r).rest <:+ r := by
  unfold keyStep
  simp only [beq_iff_eq]
  split
  · next paren =>
    subst paren
    split
    · exact skipConditional_cons_suffix (.inl rfl) r
    · split
      · exact List.suffix_refl r
      · exact callStep_suffix st token r
  · split
    · next delimiter =>
      split
      · exact List.suffix_refl r
      · split
        · exact skipConditional_cons_suffix (.inr delimiter) r
        · split
          · exact skipAlternative_cons_suffix (.inr delimiter) r
          · split
            · have := definition_cons_suffix delimiter r
              split <;> next h => rw [h] at this; exact this
            · exact List.suffix_refl r
    · exact List.suffix_refl r

theorem valueStep_suffix (st : State) (key raw : String) (c : Char) (r : List Char) :
    (valueStep st key raw c r).rest <:+ r := by
  unfold valueStep
  split
  · exact List.suffix_refl r
  · split
    · exact listItems_suffix r
    · exact List.suffix_refl r

theorem step_suffix (nesting : Nesting) (st : State) (c : Char) (r : List Char) :
    (step nesting st c r).rest <:+ r := by
  unfold step
  split
  · exact margin_suffix r
  · split
    · exact closeBlock_suffix nesting st r
    · split
      · exact List.suffix_refl r
      · split
        · next brace =>
          split
          · exact skipAlternative_cons_suffix (.inl (by simpa using brace)) r
          · exact openBlock_suffix nesting st _ r
        · exact keyStep_suffix st _ c r
      · split
        · exact openBlock_suffix nesting st _ r
        · exact valueStep_suffix st _ _ c r

theorem suffix_of_step {nesting : Nesting} {st next : State} {c : Char} {r rest : List Char}
    (h : step nesting st c r = .next next rest) : rest <:+ r := by
  have := step_suffix nesting st c r
  rwa [h] at this

/-- What comes of reading a scope. -/
inductive Reading where
  /-- The scope ended, at a `}` or at the end of the text. -/
  | closed (doc : Document) (rest : List Char)
  /-- A `{` before this text exceeds the limit on nesting. -/
  | tooDeep (rest : List Char)

/-- Read on from a state to the end of the outermost scope. -/
def read (nesting : Nesting) (st : State) : List Char → Reading
  | [] => .closed (unwind st.finished st.kind st.outer) []
  | c :: r =>
    match h : step nesting st c r with
    | .next next rest =>
      have := (suffix_of_step h).length_le
      read nesting next rest
    | .closed doc rest => .closed doc rest
    | .tooDeep rest => .tooDeep rest
  termination_by s => s.length

/-- Read a scope from its start. -/
def readScope (nesting : Nesting) (kind : ScopeKind) (s : List Char) : Reading :=
  read nesting (State.start kind) (margin s)

end BuildScript
