import BuildScript.Files.System
import BuildScript.Format.Json
import BuildScript.Format.Yaml
import BuildScript.Format.Toml
import BuildScript.Format.Cbor

/-!
# Output formats

The data formats that a document can be written in.
-/

namespace BuildScript

inductive Format where
  | json
  | yaml
  | toml
  | cbor
  deriving DecidableEq

namespace Format

def ofName? : String → Option Format
  | "json" => some json
  | "yaml" => some yaml
  | "yml" => some yaml
  | "toml" => some toml
  | "cbor" => some cbor
  | _ => none

def extension : Format → String
  | json => "json"
  | yaml => "yaml"
  | toml => "toml"
  | cbor => "cbor"

def isBinary : Format → Bool
  | cbor => true
  | _ => false

def encode (format : Format) (doc : Document) : Bytes :=
  match format with
  | json => encodeUtf8 (Json.encode doc)
  | yaml => encodeUtf8 (Yaml.encode doc)
  | toml => encodeUtf8 (Toml.encode doc)
  | cbor => Cbor.encode doc

/-- The encoding as a file of its own: text ends with a line feed. -/
def content (format : Format) (doc : Document) : Bytes :=
  let bytes := format.encode doc
  if format.isBinary || bytes.getLast? == some 10 then bytes else bytes ++ [10]

end Format

end BuildScript
