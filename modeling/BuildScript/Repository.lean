import BuildScript.Document

/-!
# Repositories

The entries of a repositories block, read from its body as a document.  A key with a sequence gives
one entry for each item.
-/

namespace BuildScript

/-- A bare call left an empty text behind; any other value makes a named entry. -/
def repositoryEntry (key : String) (value : Value) : Repository Value :=
  if value.isEmptyText then .unknown key else .named key value

def repositoryEntries (body : Document) : List (Repository Value) :=
  body.flatMap fun (key, value) =>
    match value with
    | .sequence items => items.map (repositoryEntry key)
    | value => [repositoryEntry key value]

end BuildScript
