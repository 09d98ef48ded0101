import ProtocolCodec.Json.Reader

/-!
# Passing over a value

A value that nobody asked for is only checked for its grammar: it may be nested to any depth, its
numbers may have any size and its escapes may stand for anything. The machine keeps the open arrays
and objects on a stack.
-/

namespace ProtocolCodec.Json

/-- An open array or object. -/
inductive Frame where
  | list
  | object
deriving DecidableEq, Repr

/-- What the machine is about to read. -/
inductive Expecting where
  /-- A value. -/
  | value
  /-- The key of a member. -/
  | key
  /-- The first entry of the innermost frame, or its end. -/
  | entry
  /-- A comma or the end of the innermost frame. -/
  | separator
deriving DecidableEq, Repr

namespace Frame

/-- The character that ends the frame. -/
def closing : Frame → Char
  | list => ']'
  | object => '\x7d'

/-- The cause of a text that ends inside the frame. -/
def ended : Frame → Cause
  | list => .endInList
  | object => .endInObject

/-- The cause of anything else than a comma or the end after an entry. -/
def unseparated : Frame → Cause
  | list => .expectedItemEnd
  | object => .expectedMemberEnd

/-- What an entry of the frame begins with. -/
def begins : Frame → Expecting
  | list => .value
  | object => .key

end Frame

/-- Pass over a value that is neither an array nor an object. -/
def skipScalar (text : List Char) : Outcome (List Char) :=
  match text with
  | [] => .error (.here .endInValue [])
  | 'n' :: rest => readWord ['u', 'l', 'l'] rest
  | 't' :: rest => readWord ['r', 'u', 'e'] rest
  | 'f' :: rest => readWord ['a', 'l', 's', 'e'] rest
  | '"' :: rest => skipString rest
  | '-' :: rest => skipNumber rest
  | c :: _ => if c.isDigit then skipNumber text else .error (.next .expectedValue text)

/-- Pass over a key and its colon. -/
def skipKey (text : List Char) : Outcome (List Char) :=
  match skipSpace text with
  | [] => .error (.here .endInObject [])
  | c :: rest =>
      if c = '"' then do
        let rest ← skipString rest
        readColon rest
      else .error (.next .keyNotString (c :: rest))

/-- Run the machine until the stack is empty. Two steps per character are enough. -/
def skipFrom : Nat → Expecting → List Frame → List Char → Outcome (List Char)
  | 0, _, _, text => .error (.here .endInValue text)
  | fuel + 1, .value, stack, text =>
      match skipSpace text with
      | '[' :: rest => skipFrom fuel .entry (.list :: stack) rest
      | '\x7b' :: rest => skipFrom fuel .entry (.object :: stack) rest
      | rest =>
          match skipScalar rest with
          | .error f => .error f
          | .ok rest => skipFrom fuel .separator stack rest
  | fuel + 1, .key, stack, text =>
      match skipKey text with
      | .error f => .error f
      | .ok rest => skipFrom fuel .value stack rest
  | _ + 1, _, [], text => .ok text
  | fuel + 1, .entry, frame :: stack, text =>
      match skipSpace text with
      | [] => .error (.here frame.ended [])
      | c :: rest =>
          if c = frame.closing then skipFrom fuel .separator stack rest
          else skipFrom fuel frame.begins (frame :: stack) (c :: rest)
  | fuel + 1, .separator, frame :: stack, text =>
      match skipSpace text with
      | [] => .error (.here frame.ended [])
      | c :: rest =>
          if c = ',' then skipFrom fuel frame.begins (frame :: stack) rest
          else if c = frame.closing then skipFrom fuel .separator stack rest
          else .error (.next frame.unseparated (c :: rest))

/-- Pass over any value; `width` bounds the length of the text. -/
def skipValue (width : Nat) (text : List Char) : Outcome (List Char) :=
  skipFrom (2 * width + 2) .value [] text

end ProtocolCodec.Json
