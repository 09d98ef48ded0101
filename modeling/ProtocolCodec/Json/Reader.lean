import ProtocolCodec.Json.StringReader
import ProtocolCodec.Json.NumberReader

/-!
# Reading JSON documents

Readers take the text still to be read and give back what they leave. The walks over arrays and
objects, `foldItems` and `foldMembers`, are open: a caller says what each item or member means, so
that a document of a known form is read in one pass and the first fault in the text is the one
reported.

Two numbers bound every reader. `depth` is how many more arrays and objects may be opened inside
one another; `width` is a bound on the number of entries of any one of them, for which the length of
the text will do.
-/

namespace ProtocolCodec.Json

/-- How many arrays and objects may be nested in one another. -/
def nestingLimit : Nat := 127

/-- The blanks between tokens. -/
def isSpace (c : Char) : Bool :=
  c == ' ' || c == '\n' || c == '\t' || c == '\r'

/-- Drop leading blanks. -/
def skipSpace (text : List Char) : List Char :=
  text.dropWhile isSpace

/-- Read the remaining letters of a fixed word. -/
def readWord : List Char → List Char → Outcome (List Char)
  | [], text => .ok text
  | _ :: _, [] => .error (.here .endInValue [])
  | letter :: letters, c :: rest =>
      if c = letter then readWord letters rest else .error (.next .expectedIdent (c :: rest))

/-- Read a value that is neither an array nor an object. -/
def readScalar (text : List Char) : Outcome (Json × List Char) :=
  match text with
  | [] => .error (.here .endInValue [])
  | 'n' :: rest => do
      let rest ← readWord ['u', 'l', 'l'] rest
      .ok (.null, rest)
  | 't' :: rest => do
      let rest ← readWord ['r', 'u', 'e'] rest
      .ok (.boolean true, rest)
  | 'f' :: rest => do
      let rest ← readWord ['a', 'l', 's', 'e'] rest
      .ok (.boolean false, rest)
  | '"' :: rest => do
      let (body, rest) ← readString rest
      .ok (.string (String.ofList body), rest)
  | '-' :: rest => do
      let (n, rest) ← readNumber true rest
      .ok (.number n, rest)
  | c :: _ =>
      if c.isDigit then do
        let (n, rest) ← readNumber false text
        .ok (.number n, rest)
      else .error (.next .expectedValue text)

/-- The failure of finding at the front of the text something else than what was expected. A scalar
is read first, and its own faults come before. -/
def unexpected (expected : String) (text : List Char) : Failure :=
  match text with
  | '[' :: _ => .here (.wrongKind .sequence expected) text
  | '\x7b' :: _ => .here (.wrongKind .map expected) text
  | _ =>
      match readScalar text with
      | .error f => f
      | .ok (value, rest) => .here (.wrongKind value.found expected) rest

/-! ## Arrays -/

/-- Go to the next item: whether there is one, and the text from there on. -/
def nextItem (first : Bool) (text : List Char) : Outcome (Bool × List Char) :=
  match skipSpace text with
  | [] => .error (.here .endInList [])
  | c :: rest =>
      if c = ']' then .ok (false, c :: rest)
      else if first then .ok (true, c :: rest)
      else if c = ',' then
        match skipSpace rest with
        | [] => .error (.here .endInValue [])
        | d :: rest' =>
            if d = ']' then .error (.next .trailingComma (d :: rest')) else .ok (true, d :: rest')
      else .error (.next .expectedItemEnd (c :: rest))

/-- Leave an array. -/
def closeList (text : List Char) : Outcome (List Char) :=
  match skipSpace text with
  | [] => .error (.here .endInList [])
  | c :: rest =>
      if c = ']' then .ok rest
      else if c = ',' then
        match skipSpace rest with
        | ']' :: rest' => .error (.next .trailingComma (']' :: rest'))
        | rest' => .error (.next .trailingCharacters rest')
      else .error (.next .trailingCharacters (c :: rest))

/-- The place of a failure that was pending when its array was given up. -/
def afterList (text : List Char) : List Char :=
  match skipSpace text with
  | ']' :: rest => rest
  | ',' :: rest => skipSpace rest
  | rest => rest

/-- Read what an array holds, after its opening bracket. -/
def inList {α : Type} (text : List Char) (body : List Char → Outcome (α × List Char)) :
    Outcome (α × List Char) :=
  match body text with
  | .error f => .error (f.settle afterList)
  | .ok (a, rest) =>
      match closeList rest with
      | .error f => .error f
      | .ok rest => .ok (a, rest)

/-- Walk over the items of an array, the first of which has the number `index`. -/
def foldItems {σ : Type} (step : σ → List Char → Outcome (σ × List Char)) :
    (width : Nat) → (index : Nat) → σ → List Char → Outcome (σ × List Char)
  | 0, _, _, text => .error (.here .endInList text)
  | width + 1, index, state, text =>
      match nextItem (index == 0) text with
      | .error f => .error f
      | .ok (false, rest) => .ok (state, rest)
      | .ok (true, rest) =>
          match inside (.index index) (step state rest) with
          | .error f => .error f
          | .ok (state, rest) => foldItems step width (index + 1) state rest

/-! ## Objects -/

/-- Go to the next key: whether there is one, and the text from its opening quote on. -/
def nextMember (first : Bool) (text : List Char) : Outcome (Bool × List Char) :=
  match skipSpace text with
  | [] => .error (.here .endInObject [])
  | c :: rest =>
      if c = '\x7d' then .ok (false, c :: rest)
      else if first then
        if c = '"' then .ok (true, c :: rest) else .error (.next .keyNotString (c :: rest))
      else if c = ',' then
        match skipSpace rest with
        | [] => .error (.here .endInValue [])
        | d :: rest' =>
            if d = '"' then .ok (true, d :: rest')
            else if d = '\x7d' then .error (.next .trailingComma (d :: rest'))
            else .error (.next .keyNotString (d :: rest'))
      else .error (.next .expectedMemberEnd (c :: rest))

/-- Read the next key, if there is one. -/
def readKey (first : Bool) (text : List Char) : Outcome (Option String × List Char) := do
  let (more, rest) ← nextMember first text
  if more then
    let (key, rest) ← readString rest.tail
    .ok (some (String.ofList key), rest)
  else .ok (none, rest)

/-- Read the colon after a key. -/
def readColon (text : List Char) : Outcome (List Char) :=
  match skipSpace text with
  | [] => .error (.here .endInObject [])
  | c :: rest => if c = ':' then .ok rest else .error (.next .expectedColon (c :: rest))

/-- Read the colon and the value after a key. -/
def readMember {α : Type} (key : String) (read : List Char → Outcome (α × List Char))
    (text : List Char) : Outcome (α × List Char) :=
  match readColon text with
  | .error f => .error f
  | .ok rest => inside (.key key) (read rest)

/-- Leave an object. -/
def closeObject (text : List Char) : Outcome (List Char) :=
  match skipSpace text with
  | [] => .error (.here .endInObject [])
  | c :: rest =>
      if c = '\x7d' then .ok rest
      else if c = ',' then .error (.next .trailingComma (c :: rest))
      else .error (.next .trailingCharacters (c :: rest))

/-- The place of a failure that was pending when its object was given up. -/
def afterObject (text : List Char) : List Char :=
  match skipSpace text with
  | '\x7d' :: rest => rest
  | rest => rest

/-- Read what an object holds, after its opening brace. -/
def inObject {α : Type} (text : List Char) (body : List Char → Outcome (α × List Char)) :
    Outcome (α × List Char) :=
  match body text with
  | .error f => .error (f.settle afterObject)
  | .ok (a, rest) =>
      match closeObject rest with
      | .error f => .error f
      | .ok rest => .ok (a, rest)

/-- Walk over the members of an object. A step gets the key and the text after it. -/
def foldMembers {σ : Type} (step : String → σ → List Char → Outcome (σ × List Char)) :
    (width : Nat) → (first : Bool) → σ → List Char → Outcome (σ × List Char)
  | 0, _, _, text => .error (.here .endInObject text)
  | width + 1, first, state, text =>
      match inside .unknown (readKey first text) with
      | .error f => .error f
      | .ok (none, rest) => .ok (state, rest)
      | .ok (some key, rest) =>
          match step key state rest with
          | .error f => .error f
          | .ok (state, rest) => foldMembers step width false state rest

/-! ## Values -/

/-- Read any value. Repeated keys are kept. -/
def readValue (width : Nat) : (depth : Nat) → List Char → Outcome (Json × List Char)
  | 0, text =>
      match skipSpace text with
      | '[' :: rest => .error (.next .nestingLimit ('[' :: rest))
      | '\x7b' :: rest => .error (.next .nestingLimit ('\x7b' :: rest))
      | rest => readScalar rest
  | depth + 1, text =>
      match skipSpace text with
      | '[' :: rest => do
          let item (items : List Json) (text : List Char) := do
            let (value, rest) ← readValue width depth text
            .ok (value :: items, rest)
          let (items, rest) ← inList rest (foldItems item width 0 [])
          .ok (.array items.reverse, rest)
      | '\x7b' :: rest => do
          let member (key : String) (members : Members) (text : List Char) := do
            let (value, rest) ← readMember key (readValue width depth) text
            .ok ((key, value) :: members, rest)
          let (members, rest) ← inObject rest (foldMembers member width true [])
          .ok (.object members.reverse, rest)
      | rest => readScalar rest

end ProtocolCodec.Json
