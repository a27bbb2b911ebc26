import BuildScript.Scope
import BuildScript.Error

/-!
# Scripts

Reading a whole script, within limits on its size and on the nesting of its blocks.
-/

namespace BuildScript

structure ParseOptions where
  /-- The deepest nesting of blocks that is accepted. -/
  maxDepth : Nat := 128
  /-- The largest input, in bytes of UTF-8, that is accepted. -/
  maxInputBytes : Nat := 16 * 1024 * 1024
  /-- The name of the input in errors. -/
  filename : Option String := none

/-- The text without the byte order mark that it may begin with. -/
def dropByteOrderMark : List Char → List Char
  | '\uFEFF' :: s => s
  | s => s

/-- The document of a script. -/
def parseText (options : ParseOptions) (input : String) : Except ParseError Document :=
  if options.maxInputBytes < input.utf8ByteSize then
    .error (.inputTooLarge input.utf8ByteSize options.maxInputBytes)
  else
    let s := dropByteOrderMark input.toList
    match readScope ⟨options.maxDepth, 0⟩ .script s with
    | .closed doc _ => .ok doc
    | .tooDeep rest =>
      let position := Position.after (s.take (s.length - rest.length))
      .error (.nestedTooDeep options.maxDepth position options.filename)

end BuildScript
