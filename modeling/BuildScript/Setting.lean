import BuildScript.Text
import BuildScript.Document

/-!
# Values of settings

The value of a setting is a text, a truth value or a bracketed list of texts.
-/

namespace BuildScript

open Text

/-- The value of a setting's text: one pair of quotes goes, and `true` and `false` are truth values
in quotes or without. -/
def classify (raw : List Char) : Value :=
  let text := String.ofList (unquote (trim raw))
  if text = "true" then .boolean true
  else if text = "false" then .boolean false
  else .text text

/-- The items of a list from behind its `[`, and the text after its `]`.  A list ends at the first
`]`, or at the end of the text.  Items stay text. -/
def listItems (s : List Char) : List Value × List Char :=
  let inside := s.takeWhile (· != ']')
  let items :=
    if allBlank inside then []
    else (splitOn ',' inside).map fun item => .text (String.ofList (unquote (trim item)))
  (items, (s.dropWhile (· != ']')).tail)

theorem listItems_suffix (s : List Char) : (listItems s).2 <:+ s :=
  (List.tail_suffix _).trans (List.dropWhile_suffix _)

end BuildScript
