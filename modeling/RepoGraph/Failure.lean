import RepoGraph.Disk
import RepoGraph.Extract.Asset
import RepoGraph.Extract.Code
import RepoGraph.Extract.Document
import RepoGraph.Request
import RepoGraph.Settings

/-!
# Failures

What can stop a build, a stage or the reading of one file, by cause.  `Failure.message` is the text
that clients see and `Failure.kind` the word for a failure that says nothing.
-/

namespace RepoGraph

/-- What can stop a part of a build. -/
inductive Failure where
  /-- The version control program cannot be started. -/
  | noGit (command reason : String)
  /-- The version control program fails. -/
  | git (arguments : List String) (code : Int) (output : String)
  /-- The output of the stage before is missing. -/
  | noArtifact (stage path : String)
  /-- The output of the stage before cannot be read. -/
  | unreadableArtifact (stage path reason : String)
  /-- The output of the stage before is no object. -/
  | artifactForm (stage path : String)
  /-- The project's collection has vectors of another size. -/
  | vectorSize (collection : String) (present expected : Int)
  /-- There is no such collection. -/
  | noCollection (name : String)
  | request (fault : RequestFault)
  | project (fault : Settings.UnknownProject)
  /-- Another build runs. -/
  | inProgress
  /-- A service does not answer. -/
  | unreachable (name : String) (attempts : Int)
  | disk (fault : DiskFault)
  | encoding (fault : Text.Utf8.Fault)
  | json (text : String) (fault : Json.Fault)
  | yaml (fault : Yaml.Fault)
  | frontMatter (fault : FrontMatter.Fault)
  | asset (fault : AssetFault)
  /-- A value has no JSON form. -/
  | form (fault : Yaml.JsonFault)
  | code (fault : CodeFault)
  | record (fault : RecordFault)
  | stamp (fault : NotAStamp)
  /-- The settings name a graph store that is not known. -/
  | unknownGraph (name : String)
  /-- The settings name an embedding provider that is not known. -/
  | unknownProvider (name : String)
  /-- There is no key for the model service. -/
  | noKey
  /-- An embedding service answers without vectors. -/
  | noVectors
  /-- An operation that a store or provider does not have. -/
  | notProvided
  /-- Something outside fails, with a word for the kind of failure and a text. -/
  | outside (kind text : String)

namespace Failure

/-- The text of a YAML fault. -/
def yamlText : Yaml.Fault → String
  | .noCharacter => "chr() arg not in range(0x110000)"
  | .noWord => "Python int too large to convert to C int"
  | .numeral f => f.message
  | .emptyNumber => "string index out of range"
  | .noTruthValue word => Text.quoted word
  | .calendar f => f.message
  | .malformed => "the text is not valid YAML"
  | .noTimestamp | .timestampOfMapping => "the timestamp cannot be read"

/-- The text of a fault in a record. -/
def recordText : RecordFault → String
  | .missing name => Text.quoted name
  | .numeral f => f.message
  | .wrongType => "a value has another type than its field"
  | .notARecord => "a record is expected"

/-- The text that clients see. -/
def message : Failure → String
  | noGit command reason => "git " ++ command ++ " failed: " ++ reason
  | git arguments status output =>
    "git " ++ " ".intercalate arguments ++ " failed (" ++ toString status ++ "): " ++ output
  | noArtifact stage path => stage ++ " output not found at " ++ path
  | unreadableArtifact stage path reason =>
    "Could not read " ++ stage ++ " output at " ++ path ++ ": " ++ reason
  | artifactForm stage path => stage ++ " output at " ++ path ++ " is not a JSON object"
  | vectorSize collection present expected =>
    "Qdrant collection " ++ collection ++ " has dimension " ++ toString present ++ ", expected " ++
      toString expected ++ ". Please recreate the collection to continue."
  | noCollection name => "Collection " ++ name ++ " not found"
  | request f => f.message
  | project f => f.message
  | inProgress => "A build is already in progress"
  | unreachable name attempts =>
    name ++ " not reachable after " ++ toString attempts ++ " attempts"
  | disk f => f.message
  | encoding f => f.message
  | json text f => f.message text
  | yaml f => yamlText f
  | frontMatter (.yaml f) => yamlText f
  | frontMatter (.json f) => f.message
  | asset (.unsupported path) => "Unsupported asset file: " ++ path
  | asset (.json text f) => f.message text
  | asset (.yaml f) => yamlText f
  | asset (.key f) => f.message
  | form f => f.message
  | code f => f.message
  | record f => recordText f
  | stamp f => f.message
  | unknownGraph name => "Unknown graph backend: " ++ name
  | unknownProvider name => "Unknown embedding provider: " ++ name
  | noKey => "OPENAI_API_KEY is not set."
  | noVectors => "embedding service returned an empty payload"
  | notProvided => ""
  | outside _ text => text

/-- The word for a failure that says nothing. -/
def kind : Failure → String
  | notProvided => "NotImplementedError"
  | outside "" _ => "Exception"
  | outside word _ => word
  | _ => "Failure"

/-- The text that clients see, or the word for the kind of failure where there is no text. -/
def summary (f : Failure) : String := if f.message == "" then f.kind else f.message

/-- Whether a request is refused, so that no build begins. -/
def isRefusal : Failure → Bool
  | request _ | project _ | inProgress => true
  | _ => false

end Failure

end RepoGraph
