import BuildScript.Files.Name
import BuildScript.Error

/-!
# File systems

Files and directories by their place below the root.  Paths are followed name by name from the root
or from the working directory, and what stands in the way of reading or writing is found on the
way.  Writing replaces the whole file or changes nothing.

Links and permissions are left out: a name stands for one place, which every run may read and write.
-/

namespace BuildScript

abbrev Bytes := List UInt8

/-- The bytes of a text in UTF-8. -/
def encodeUtf8 (s : String) : Bytes := s.toUTF8.data.toList

def decodeUtf8? (bytes : Bytes) : Option String := String.fromUTF8? ⟨bytes.toArray⟩

inductive Node where
  | file (content : Bytes)
  | directory
  deriving DecidableEq

/-- The names from the root to a file or directory. -/
abbrev Place := List String

structure FileSystem where
  workingDirectory : Place
  nodes : List (Place × Node)

namespace FileSystem

/-! ## Places -/

/-- What stands at a place.  The root is always a directory. -/
def node? (files : FileSystem) (place : Place) : Option Node :=
  if place = [] then some .directory else files.nodes.lookup place

/-- Put a node at a place. -/
def set (place : Place) (node : Node) (files : FileSystem) : FileSystem :=
  { files with nodes := go files.nodes }
where
  go : List (Place × Node) → List (Place × Node)
    | [] => [(place, node)]
    | (p, n) :: nodes => if p = place then (p, node) :: nodes else (p, n) :: go nodes

/-- Put a node at a place, with a directory at every place on the way that is free. -/
def make (place : Place) (node : Node) (files : FileSystem) : FileSystem :=
  let parents := (List.range place.length).map place.take
  set place node (parents.foldl
    (fun files parent =>
      if (files.node? parent).isSome then files else set parent .directory files) files)

/-! ## Paths -/

/-- The longest name of a file, in bytes. -/
def maxNameSize : Nat := 255

/-- The longest path, in bytes. -/
def maxPathSize : Nat := 4095

/-- Follow names from a place. -/
def follow (files : FileSystem) (place : Place) : List String → Except FileError Place
  | [] => .ok place
  | name :: names =>
    if files.node? place ≠ some .directory then .error .notDirectory
    else if name = "" || name = "." then files.follow place names
    else if name = ".." then files.follow place.dropLast names
    else if maxNameSize < name.utf8ByteSize then .error .nameTooLong
    else if (files.node? (place ++ [name])).isNone then .error .notFound
    else files.follow (place ++ [name]) names

/-- The names of a path, and the place where they are followed from. -/
def start (files : FileSystem) (path : String) : Except FileError (Place × List String) :=
  if path = "" then .error .notFound
  else if maxPathSize < path.utf8ByteSize then .error .nameTooLong
  else
    let place := if path.toList.head? = some '/' then [] else files.workingDirectory
    .ok (place, FileName.components path)

/-- The place that a path leads to. -/
def locate (files : FileSystem) (path : String) : Except FileError Place := do
  let (place, names) ← files.start path
  files.follow place names

def isDirectory (files : FileSystem) (path : String) : Bool :=
  match files.locate path with
  | .ok place => files.node? place = some .directory
  | .error _ => false

/-- The names in the directory that a path leads to, in order. -/
def entries (files : FileSystem) (path : String) : List String :=
  match files.locate path with
  | .error _ => []
  | .ok place =>
    let names := files.nodes.filterMap fun (p, _) =>
      match p.getLast? with
      | some name => if p = place ++ [name] then some name else none
      | none => none
    names.mergeSort fun a b => a ≤ b

/-! ## Reading and writing -/

def read (files : FileSystem) (path : String) : Except FileError Bytes := do
  match files.node? (← files.locate path) with
  | some (.file content) => .ok content
  | some .directory => .error .isDirectory
  | none => .error .notFound

def readText (files : FileSystem) (path : String) : Except FileError String := do
  match decodeUtf8? (← files.read path) with
  | some text => .ok text
  | none => .error .notText

/-- The place of the file that a path names, whether it is there already or not. -/
def target (files : FileSystem) (path : String) : Except FileError Place := do
  let (place, names) ← files.start path
  let named := names.filter (· ≠ "")
  let parent ← files.follow place named.dropLast
  if files.node? parent ≠ some .directory then .error .notDirectory
  else match named.getLast? with
    | none => .error .isDirectory
    | some name =>
      if name = "." || name = ".." || names.getLast? = some "" then .error .isDirectory
      else if maxNameSize < name.utf8ByteSize then .error .nameTooLong
      else if files.node? (parent ++ [name]) = some .directory then .error .isDirectory
      else .ok (parent ++ [name])

def write (files : FileSystem) (path : String) (content : Bytes) :
    Except FileError FileSystem := do
  return files.set (← files.target path) (.file content)

end FileSystem

end BuildScript
