import BuildScript.Document.Listing
import BuildScript.Main
import BuildScript.Proofs.Dependencies.Reading
import BuildScript.Proofs.Dependencies.Projects
import BuildScript.Proofs.Grammar.Syntax
import BuildScript.Proofs.Grammar.Reading
import BuildScript.Proofs.Braces.Balance
import BuildScript.Proofs.Braces.Reading
import BuildScript.Proofs.Locality.Skip
import BuildScript.Proofs.Nesting
import BuildScript.Proofs.Skipped.Construct
import BuildScript.Proofs.Locality.Reading
import BuildScript.Proofs.WellFormed.Reading
import BuildScript.Proofs.Comments.Reading
import BuildScript.Proofs.Merge.Algebra
import BuildScript.Proofs.Merge.Chains
import BuildScript.Proofs.Repositories.Reading
import BuildScript.Proofs.Bodies.Reading
import BuildScript.Proofs.Toml.Reading
import BuildScript.Proofs.Json.Tokens
import BuildScript.Proofs.Cbor
import BuildScript.Proofs.Json.Reading
import BuildScript.Proofs.Yaml.Blocks
import BuildScript.Proofs.Comments.Irrelevance
import BuildScript.Proofs.Command.Directory
import BuildScript.Proofs.Contract
import BuildScript.Proofs.Repositories.Occurrences
import BuildScript.Proofs.Repositories.Calls
import BuildScript.Proofs.LineBreaks.Reading
import BuildScript.Proofs.Splitting.Arguments
import BuildScript.Proofs.Splitting.Statements
