import BuildScript.Text

/-!
# File names

The extension of a name is what follows its last dot.  A dot at the start of a name does not begin
an extension.
-/

namespace BuildScript.FileName

/-- The name without its extension, and the extension. -/
def splitExtension (name : List Char) : List Char × Option (List Char) :=
  if name == ['.', '.'] then (name, none)
  else
    let extension := (name.reverse.takeWhile (· != '.')).reverse
    match (name.reverse.dropWhile (· != '.')).tail.reverse with
    | [] => (name, none)
    | stem => (stem, some extension)

def hasExtension (extension name : String) : Bool :=
  (splitExtension name.toList).2 == some extension.toList

/-- The name with another extension in place of the one that it has, or with a first one.  What is
left of the name before the new extension must name a file: `..` does not and stays alone. -/
def renamed (extension name : List Char) : List Char :=
  let stem := (splitExtension name).1
  if name == ['.'] || name == ['.', '.'] then name
  else if stem == ['.'] then ['.', '.']
  else stem ++ '.' :: extension

/-- The path of a file with another extension.  A path that ends in a slash leads to no file: it
cannot be read, and so nothing is written beside it. -/
def withExtension (path extension : String) : String :=
  let s := path.toList
  let name := (s.reverse.takeWhile (· != '/')).reverse
  let directory := s.take (s.length - name.length)
  String.ofList (directory ++ renamed extension.toList name)

/-- The path of an entry of a directory. -/
def inDirectory (directory name : String) : String :=
  if directory.toList.getLast? == some '/' then directory ++ name else directory ++ "/" ++ name

/-- The names that a path leads through.  An empty one stands before, between or after slashes. -/
def components (path : String) : List String :=
  (Text.splitOn '/' path.toList).map String.ofList

end BuildScript.FileName
