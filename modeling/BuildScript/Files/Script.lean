import BuildScript.Files.System
import BuildScript.Script

/-!
# Script files

Reading a script from a file.  The path of the file names it in errors unless the options do.
-/

namespace BuildScript

def parseFile (files : FileSystem) (options : ParseOptions) (path : String) :
    Except ParseError Document :=
  match files.readText path with
  | .error reason => .error (.unreadable path reason)
  | .ok text => parseText { options with filename := some (options.filename.getD path) } text

end BuildScript
