import ProtocolCodec.Files.Tree
import ProtocolCodec.Model.Reader
import ProtocolCodec.Settings

/-!
# Loading documents from files

A file is read as a text and the text as a metamodel or as settings. A failure says which file it
is about, and for a document also which part of it and which place in the file.
-/

namespace ProtocolCodec

/-- Why a document cannot be loaded. -/
inductive LoadError where
  | unreadable (path : String) (error : FileError)
  /-- A text that is not the document it should be. -/
  | malformed (path : String) (text : String) (failure : Json.Failure)

namespace LoadError

/-- The wording of an error. -/
def message : LoadError → String
  | unreadable path error => "failed to read " ++ path ++ ": " ++ error.message
  | malformed path text failure =>
      "failed to parse " ++ path ++ " at JSON path " ++ failure.path.describe ++ " → " ++
        failure.report text.toList

/-- The messages of an error and of what brought it about. -/
def chain (error : LoadError) : List String :=
  match error with
  | unreadable _ cause => [error.message, cause.message]
  | malformed .. => [error.message]

end LoadError

/-- How the text of a file is obtained. -/
abbrev TextSource := String → Except FileError String

/-- Load a document. -/
def load {α : Type} (ofText : String → Json.Outcome α) (source : TextSource) (path : String) :
    Except LoadError α :=
  match source path with
  | .error error => .error (.unreadable path error)
  | .ok text => (ofText text).mapError (.malformed path text)

/-- Load a metamodel. -/
def Model.load : TextSource → String → Except LoadError Model :=
  ProtocolCodec.load Model.ofText

/-- Load settings. -/
def Settings.load : TextSource → String → Except LoadError Settings :=
  ProtocolCodec.load Settings.ofText

end ProtocolCodec
