import ProtocolCodec.Json.Printer
import ProtocolCodec.Text.Quoted

/-!
# Why a document is rejected

A failure has a cause, the path of the value that was being read, and a place in the text. Causes
are data; `Cause.message` holds their wording. Places are counted in bytes from the end of the text,
so that a reader needs nothing but the text it still has to read.
-/

namespace ProtocolCodec.Json

/-- What stood where something else was expected. -/
inductive Found where
  | null
  | boolean (b : Bool)
  | number (n : Number)
  | string (s : String)
  | sequence
  | map
deriving DecidableEq, Repr

/-- What a document is, seen from outside. -/
def found : Json → Found
  | .null => .null
  | .boolean b => .boolean b
  | .number n => .number n
  | .string s => .string s
  | .array _ => .sequence
  | .object _ => .map

namespace Found

/-- How the finding is named in a message. -/
def describe : Found → String
  | .null => "null"
  | .boolean b => if b then "boolean `true`" else "boolean `false`"
  | .number (.whole n) => "integer `" ++ Text.decimalText n.value ++ "`"
  | .number (.float x) => "floating point `" ++ String.ofList (Layout.document.finite x) ++ "`"
  | .string s => "string " ++ Text.Quoted.quote s
  | .sequence => "sequence"
  | .map => "map"

end Found

/-- Why a text is not a document, or a document not of the expected form. -/
inductive Cause where
  | endInValue
  | endInString
  | endInList
  | endInObject
  | expectedValue
  | expectedIdent
  | expectedColon
  | expectedItemEnd
  | expectedMemberEnd
  | trailingComma
  | trailingCharacters
  | keyNotString
  | invalidNumber
  | numberOutOfRange
  | invalidEscape
  | loneSurrogate
  | unpairedSurrogate
  | controlCharacter
  | nestingLimit
  /-- A value of the wrong kind. -/
  | wrongKind (found : Found) (expected : String)
  /-- An integer of the right kind outside the expected range. -/
  | wrongInteger (n : Int) (expected : String)
  /-- A sequence with the wrong number of items. -/
  | wrongLength (length : Nat) (expected : String)
  | missingField (key : String)
  | duplicateField (key : String)
  /-- A tag that names none of the known alternatives. -/
  | unknownTag (tag : String) (known : List String)
  /-- A value that fits no alternative of an untagged choice. -/
  | noAlternative (choice : String)
deriving DecidableEq, Repr

/-- A name between backticks. -/
def ticked (name : String) : String :=
  "`" ++ name ++ "`"

namespace Cause

/-- The wording of a cause. -/
def message : Cause → String
  | endInValue => "EOF while parsing a value"
  | endInString => "EOF while parsing a string"
  | endInList => "EOF while parsing a list"
  | endInObject => "EOF while parsing an object"
  | expectedValue => "expected value"
  | expectedIdent => "expected ident"
  | expectedColon => "expected `:`"
  | expectedItemEnd => "expected `,` or `]`"
  | expectedMemberEnd => "expected `,` or `\x7d`"
  | trailingComma => "trailing comma"
  | trailingCharacters => "trailing characters"
  | keyNotString => "key must be a string"
  | invalidNumber => "invalid number"
  | numberOutOfRange => "number out of range"
  | invalidEscape => "invalid escape"
  | loneSurrogate => "lone leading surrogate in hex escape"
  | unpairedSurrogate => "unexpected end of hex escape"
  | controlCharacter => "control character (\\u0000-\\u001F) found while parsing a string"
  | nestingLimit => "recursion limit exceeded"
  | wrongKind found expected => "invalid type: " ++ found.describe ++ ", expected " ++ expected
  | wrongInteger n expected =>
      "invalid value: integer `" ++ Text.decimalText n ++ "`, expected " ++ expected
  | wrongLength length expected =>
      "invalid length " ++ Text.decimalText length ++ ", expected " ++ expected
  | missingField key => "missing field " ++ ticked key
  | duplicateField key => "duplicate field " ++ ticked key
  | unknownTag tag known =>
      "unknown variant " ++ ticked tag ++ ", expected one of " ++
        ", ".intercalate (known.map ticked)
  | noAlternative choice => "data did not match any variant of untagged enum " ++ choice

end Cause

/-- One step from a document to a part of it. `unknown` stands for a member whose key could not be
read. -/
inductive Segment where
  | key (name : String)
  | index (i : Nat)
  | unknown
deriving DecidableEq, Repr

/-- The way from the root to a part of a document. -/
abbrev Path := List Segment

namespace Path

/-- The text of the segments after the first. -/
def describeRest : Path → String
  | [] => ""
  | .key name :: rest => "." ++ name ++ describeRest rest
  | .index i :: rest => "[" ++ Text.decimalText i ++ "]" ++ describeRest rest
  | .unknown :: rest => ".?" ++ describeRest rest

/-- The text of a path: members joined by dots, indices in brackets, a dot for the root. -/
def describe : Path → String
  | [] => "."
  | .key name :: rest => name ++ describeRest rest
  | .index i :: rest => "[" ++ Text.decimalText i ++ "]" ++ describeRest rest
  | .unknown :: rest => "?" ++ describeRest rest

end Path

/-- The number of bytes of a text. -/
def byteCount : List Char → Nat
  | [] => 0
  | c :: rest => c.utf8Size + byteCount rest

/-- Where a failure is placed. A pending failure was found in a value that had already been read;
the array or object around it decides the place. -/
inductive Place where
  /-- The number of unread bytes. -/
  | before (unread : Nat)
  /-- The text that was still to be read. -/
  | pending (rest : List Char)
deriving DecidableEq, Repr

/-- A rejected text. -/
structure Failure where
  cause : Cause
  path : Path
  place : Place
deriving DecidableEq, Repr

/-- The outcome of reading: a result, as a rule with the unread text, or a failure. -/
abbrev Outcome := Except Failure

namespace Failure

/-- A failure placed before the unread text. -/
def here (cause : Cause) (rest : List Char) : Failure :=
  ⟨cause, [], .before (byteCount rest)⟩

/-- A failure placed some bytes into the unread text, or at its end. -/
def within (bytes : Nat) (cause : Cause) (rest : List Char) : Failure :=
  ⟨cause, [], .before (byteCount rest - bytes)⟩

/-- A failure at the next byte of the unread text. -/
def next (cause : Cause) (rest : List Char) : Failure :=
  within 1 cause rest

/-- A failure in a value that has been read. -/
def late (cause : Cause) (rest : List Char) : Failure :=
  ⟨cause, [], .pending rest⟩

/-- The failure seen from one level further out. -/
def under (segment : Segment) (f : Failure) : Failure :=
  { f with path := segment :: f.path }

/-- Place a pending failure after the part of the text that `skip` passes over. -/
def settle (skip : List Char → List Char) (f : Failure) : Failure :=
  match f.place with
  | .pending rest => { f with place := .before (byteCount (skip rest)) }
  | .before _ => f

end Failure

/-- Run a reader one level down: its failures get the segment in front of their path. -/
def inside {α : Type} (segment : Segment) (read : Outcome α) : Outcome α :=
  read.mapError (·.under segment)

/-- A place in a text for people: lines from one, columns in bytes. -/
structure Position where
  line : Nat
  column : Nat
deriving DecidableEq, Repr

namespace Position

/-- The position a number of bytes further on. -/
def advance (position : Position) (bytes : Nat) : List Char → Position
  | [] => position
  | c :: rest =>
      if bytes < c.utf8Size then { position with column := position.column + bytes }
      else if c = '\n' then advance ⟨position.line + 1, 0⟩ (bytes - c.utf8Size) rest
      else
        advance { position with column := position.column + c.utf8Size } (bytes - c.utf8Size) rest

/-- The position in a text that leaves a number of bytes unread. -/
def before (text : List Char) (unread : Nat) : Position :=
  advance ⟨1, 0⟩ (byteCount text - unread) text

/-- How a position is named. -/
def describe (position : Position) : String :=
  "line " ++ Text.decimalText position.line ++ " column " ++ Text.decimalText position.column

end Position

namespace Failure

/-- The message of a failure, with its position when it has one. -/
def report (text : List Char) (f : Failure) : String :=
  match f.place with
  | .before unread => f.cause.message ++ " at " ++ (Position.before text unread).describe
  | .pending _ => f.cause.message

end Failure

end ProtocolCodec.Json
