import BuildScript.Proofs.Grammar.Syntax
import BuildScript.Proofs.Merge.UniqueKeys

/-!
# What lines leave as it is

A line of a script puts a value under one key at most.  What the other keys hold stays as it is, and
no key comes to stand twice.
-/

namespace BuildScript

namespace Document

variable {doc : Document} {key k : String} {v : Value}

/-! ## Blocks under a key -/

/-- What a key holds when the value of a block has been put under it. -/
def joinedValue : Option Value → Value → Value
  | some (.document existing), .document incoming => .document (merge existing incoming)
  | some (.dependencies existing), .dependencies more => .dependencies (existing ++ more)
  | some (.repositories existing), .repositories more => .repositories (existing ++ more)
  | _, v => v

theorem joinBlock_eq_set (key : String) (v : Value) (doc : Document) :
    doc.joinBlock key v = doc.set key (joinedValue (doc.get? key) v) := by
  unfold joinBlock
  split
  · next found => rw [found, joinedValue]
  · next found => rw [found, joinedValue]
  · next found => rw [found, joinedValue]
  · next documents dependencies repositories =>
    congr 1
    unfold joinedValue
    split
    · exact absurd ‹_› (documents _ _ rfl)
    · exact absurd ‹_› (dependencies _ _ rfl)
    · exact absurd ‹_› (repositories _ _ rfl)
    · rfl

theorem get?_joinBlock (doc : Document) (key k : String) (v : Value) :
    get? k (doc.joinBlock key v) =
      if key = k then some (joinedValue (get? key doc) v) else get? k doc := by
  rw [joinBlock_eq_set, get?_set]

theorem nodup_keys_joinBlock (unique : doc.keys.Nodup) (key : String) (v : Value) :
    (doc.joinBlock key v).keys.Nodup := by
  rw [joinBlock_eq_set]
  exact nodup_keys_set unique key _

theorem get?_add_of_ne (other : key ≠ k) (v : Value) (doc : Document) :
    get? k (doc.add key v) = get? k doc := by
  unfold add
  split <;> rw [get?_set, if_neg other]

end Document

namespace Grammar

open Document

/-! ## Keys of lines -/

/-- The key that a line puts a value under. -/
def ScriptLine.key? {commented : Bool} : ScriptLine commented → Option String
  | .blank _ => none
  | .comment _ _ => none
  | .afterComment _ _ line => line.key?
  | .setting _ key _ _ => some key.name
  | .declaration _ _ _ name _ _ _ => some name.name
  | .list _ key _ _ _ => some key.name
  | .bare _ _ _ => none
  | .block _ key _ _ _ => some key.name

def Script.keys {commented : Bool} : Script commented → List String
  | .last line => line.key?.toList
  | .cons line _ more => line.key?.toList ++ more.keys

/-- A line leaves the values under other keys as they are. -/
theorem get?_line {k : String} {commented : Bool} (line : ScriptLine commented) (doc : Document)
    (other : line.key? ≠ some k) : get? k (line.meaning doc) = get? k doc := by
  match line with
  | .blank _ => rfl
  | .comment _ _ => rfl
  | .afterComment _ _ line => exact get?_line line doc other
  | .setting _ _ _ _ => exact get?_add_of_ne (fun same => other (congrArg some same)) _ doc
  | .declaration _ _ _ _ _ _ _ => exact get?_add_of_ne (fun same => other (congrArg some same)) _ doc
  | .list _ _ _ _ _ => exact get?_add_of_ne (fun same => other (congrArg some same)) _ doc
  | .bare _ _ _ => rfl
  | .block _ _ _ _ _ =>
    rw [ScriptLine.meaning, get?_joinBlock, if_neg fun same => other (congrArg some same)]

theorem get?_script {k : String} {commented : Bool} (script : Script commented) (doc : Document)
    (other : k ∉ script.keys) : get? k (script.meaning doc) = get? k doc := by
  match script with
  | .last line => exact get?_line line doc (by simpa [Script.keys] using other)
  | .cons line _ more =>
    rw [Script.keys, List.mem_append, not_or] at other
    rw [Script.meaning, get?_script more _ other.2, get?_line line doc (by simpa using other.1)]

theorem nodup_keys_line {commented : Bool} (line : ScriptLine commented) {doc : Document}
    (unique : doc.keys.Nodup) : (line.meaning doc).keys.Nodup := by
  match line with
  | .blank _ => exact unique
  | .comment _ _ => exact unique
  | .afterComment _ _ line => exact nodup_keys_line line unique
  | .setting _ _ _ _ => exact nodup_keys_add unique _ _
  | .declaration _ _ _ _ _ _ _ => exact nodup_keys_add unique _ _
  | .list _ _ _ _ _ => exact nodup_keys_add unique _ _
  | .bare _ _ _ => exact unique
  | .block _ _ _ _ _ => exact nodup_keys_joinBlock unique _ _

theorem nodup_keys_script {commented : Bool} (script : Script commented) {doc : Document}
    (unique : doc.keys.Nodup) : (script.meaning doc).keys.Nodup := by
  match script with
  | .last line => exact nodup_keys_line line unique
  | .cons line _ more => exact nodup_keys_script more (nodup_keys_line line unique)

end Grammar

end BuildScript
