import ProtocolCodec.Binary64.Layout
import ProtocolCodec.Json.Basic

/-!
# Compact JSON text

No blanks between tokens, members in their order, numbers with their shortest digits. A string
escapes the quote, the backslash and the controls below the space, and nothing else.
-/

namespace ProtocolCodec.Json

/-- How one character is written inside a JSON string. -/
def escape (c : Char) : List Char :=
  if c = '"' then ['\\', '"']
  else if c = '\\' then ['\\', '\\']
  else if c = '\x08' then ['\\', 'b']
  else if c = '\x0c' then ['\\', 'f']
  else if c = '\n' then ['\\', 'n']
  else if c = '\r' then ['\\', 'r']
  else if c = '\t' then ['\\', 't']
  else if c.toNat < 0x20 then
    ['\\', 'u', '0', '0', Text.digitChar (c.toNat / 16), Text.digitChar (c.toNat % 16)]
  else [c]

/-- A JSON string. -/
def printString (text : List Char) : List Char :=
  '"' :: (text.flatMap escape ++ ['"'])

end ProtocolCodec.Json

namespace ProtocolCodec.Number

/-- The text of a number. -/
def print : Number → List Char
  | .whole n => Text.decimalInt n.value
  | .float x => Layout.document.finite x

end ProtocolCodec.Number

namespace ProtocolCodec.Json

mutual

/-- The compact text of a document. -/
def print : Json → List Char
  | .null => ['n', 'u', 'l', 'l']
  | .boolean true => ['t', 'r', 'u', 'e']
  | .boolean false => ['f', 'a', 'l', 's', 'e']
  | .number n => n.print
  | .string s => printString s.toList
  | .array items => '[' :: (printItems items ++ [']'])
  | .object members => '\x7b' :: (printMembers members ++ ['\x7d'])

/-- Items separated by commas. -/
def printItems : List Json → List Char
  | [] => []
  | [item] => print item
  | item :: next :: rest => print item ++ ',' :: printItems (next :: rest)

/-- Members separated by commas. -/
def printMembers : List (String × Json) → List Char
  | [] => []
  | [(key, value)] => printString key.toList ++ ':' :: print value
  | (key, value) :: next :: rest =>
      printString key.toList ++ ':' :: (print value ++ ',' :: printMembers (next :: rest))

end

/-- The compact text as a string. -/
def compact (document : Json) : String :=
  String.ofList document.print

end ProtocolCodec.Json
