import ProtocolCodec.Json.Record

/-!
# Generator settings

Two sets of names steer a run: the types that are written by hand and therefore not emitted, and the
aliases that are plain strings wherever they are referred to. Sets are kept in order.
-/

namespace ProtocolCodec

/-- A finite set of names, in increasing order. -/
structure NameSet where
  names : List String
deriving DecidableEq, Repr

namespace NameSet

/-- The set without names. -/
def empty : NameSet := ⟨[]⟩

/-- Whether a name belongs to the set. -/
def has (set : NameSet) (name : String) : Bool :=
  set.names.contains name

/-- Put a name at its place in an ordered list, unless it is there. -/
def place (name : String) : List String → List String
  | [] => [name]
  | first :: rest =>
      if name = first then first :: rest
      else if name < first then name :: first :: rest
      else first :: place name rest

/-- The set with one more name. -/
def insert (set : NameSet) (name : String) : NameSet :=
  ⟨place name set.names⟩

/-- The set with more names. -/
def insertAll (set : NameSet) (names : List String) : NameSet :=
  names.foldl insert set

/-- The set of the names of a list. -/
def ofList (names : List String) : NameSet :=
  empty.insertAll names

end NameSet

/-- What a run is told about names. -/
structure Settings where
  /-- Type names that are never emitted. -/
  excluded : NameSet
  /-- Schema names of aliases that are plain strings. -/
  stringAliases : NameSet
deriving DecidableEq, Repr

namespace Settings

/-- No exclusions and no string aliases. -/
def empty : Settings := ⟨.empty, .empty⟩

/-- The settings of a run that is told nothing. -/
def standard : Settings where
  excluded := .ofList ["LSPAny", "LSPObject", "LSPArray"]
  stringAliases := .ofList ["ChangeAnnotationIdentifier", "Pattern", "RegularExpressionEngineKind"]

/-- Exclude more type names. -/
def exclude (settings : Settings) (names : List String) : Settings :=
  { settings with excluded := settings.excluded.insertAll names }

/-- Declare more string aliases. -/
def addStringAliases (settings : Settings) (names : List String) : Settings :=
  { settings with stringAliases := settings.stringAliases.insertAll names }

/-- Whether a type name is excluded. -/
def isExcluded (settings : Settings) (typeName : String) : Bool :=
  settings.excluded.has typeName

/-- Whether a schema name is a string alias. -/
def isStringAlias (settings : Settings) (name : String) : Bool :=
  settings.stringAliases.has name

/-- The fields of the settings. -/
def fields : List (Json.TextField Settings) :=
  [Json.textField false "excluded" (Json.readList Json.readText) fun s names =>
     { s with excluded := .ofList names },
   Json.textField false "stringAliases" (Json.readList Json.readText) fun s names =>
     { s with stringAliases := .ofList names }]

/-- Read settings; a field that is missing keeps its standard value. -/
def read : Json.Reader Settings :=
  Json.readRecord "GeneratorConfig" fields standard

/-- The settings a text begins with. -/
def ofText (text : String) : Json.Outcome Settings :=
  Json.readWith read text

end Settings

end ProtocolCodec
