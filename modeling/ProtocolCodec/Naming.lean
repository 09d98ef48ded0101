import ProtocolCodec.Text.Case

/-!
# Names in generated code

Schema names become type, variant and field identifiers. The three maps are total and need not be
injective: the run that emits declarations keeps the first of two that meet.
-/

namespace ProtocolCodec.Naming

/-- Words of the target language that no identifier may be. -/
def reservedWords : List String :=
  ["abstract", "as", "async", "await", "become", "box", "break", "const", "continue", "crate",
   "do", "dyn", "else", "enum", "extern", "false", "final", "fn", "for", "gen", "if", "impl",
   "in", "let", "loop", "macro", "match", "mod", "move", "mut", "override", "priv", "pub",
   "ref", "return", "self", "static", "struct", "super", "trait", "true", "try", "type",
   "typeof", "unsafe", "unsized", "use", "virtual", "where", "while", "yield"]

/-- Whether a text is a reserved word. -/
def isReserved (name : List Char) : Bool :=
  reservedWords.contains (String.ofList name)

/-- Drop one leading underscore. -/
def dropUnderscore : List Char → List Char
  | '_' :: rest => rest
  | name => name

/-- Put the first character in upper case. -/
def capitalize : List Char → List Char
  | [] => []
  | c :: rest => Text.upper c ++ rest

/-- The characters of a type name: one leading underscore dropped, the first letter a capital. -/
def typeChars (name : List Char) : List Char :=
  capitalize (dropUnderscore name)

/-- Whether a character may stand in an ASCII identifier. -/
def isIdentifierChar (c : Char) : Bool :=
  c.isAlphanum || c == '_'

/-- The characters of a variant name: those of the type name with everything foreign replaced by an
underscore, kept apart from numerals and reserved words. -/
def variantChars (name : List Char) : List Char :=
  let clean := (typeChars name).map fun c => if isIdentifierChar c then c else '_'
  if (clean.head?.map Char.isDigit).getD false then 'V' :: clean
  else if clean == ['S', 'e', 'l', 'f'] || isReserved clean then clean ++ ['_']
  else clean

/-- The separated lower-case form of a character: a capital gets an underscore in front. -/
def separate (c : Char) : List Char :=
  if Text.isCapital c then '_' :: Text.lower c else [c]

/-- Words separated by underscores, without the separator a leading capital would bring. -/
def snakeChars : List Char → List Char
  | [] => []
  | c :: rest =>
      (if Text.isCapital c then Text.lower c else [c]) ++ rest.flatMap separate

/-- The characters of a field name. -/
def fieldChars (name : List Char) : List Char :=
  let snake := snakeChars name
  if isReserved snake then snake ++ ['_'] else snake

/-- The name of a declared type. -/
def typeName (name : String) : String :=
  String.ofList (typeChars name.toList)

/-- The name of an enumeration variant. -/
def variantName (name : String) : String :=
  String.ofList (variantChars name.toList)

/-- The name of a structure field. -/
def fieldName (name : String) : String :=
  String.ofList (fieldChars name.toList)

end ProtocolCodec.Naming
