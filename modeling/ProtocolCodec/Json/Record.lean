import ProtocolCodec.Json.Skip

/-!
# Records

A record has named fields in a fixed order. It is written as an object, whose members may come in
any order and among others, or as an array with the fields by position. Both forms can be read from
a text in one pass (`readRecord`) or taken from a value read before (`decodeRecord`); a field says
how its value is stored into a blank record.
-/

namespace ProtocolCodec.Json

/-- A field of a record; `store` reads a value into the record. -/
structure Field (σ : Type) where
  key : String
  required : Bool
  store : σ

/-- How many elements a sequence has. -/
def elementCount (count : Nat) : String :=
  if count = 1 then "1 element" else Text.decimalText count ++ " elements"

/-- What a record expects when it is given too few elements. -/
def fieldCount {σ : Type} (label : String) (fields : List (Field σ)) : String :=
  label ++ " with " ++ elementCount fields.length

/-- The first required field whose key has not been seen. -/
def firstMissing? {σ : Type} (fields : List (Field σ)) (seen : List String) : Option String :=
  (fields.find? fun field => field.required && !seen.contains field.key).map (·.key)

/-! ## From a text -/

/-- A reader with the bounds it works under. -/
abbrev Reader (α : Type) := (width depth : Nat) → List Char → Outcome (α × List Char)

/-- A field read from a text. -/
abbrev TextField (α : Type) := Field (α → Reader α)

section FromText

variable {α β : Type}

/-- A field read by `read` and stored by `put`. -/
def textField (required : Bool) (key : String) (read : Reader β) (put : α → β → α) :
    TextField α where
  key := key
  required := required
  store a width depth text := do
    let (b, rest) ← read width depth text
    .ok (put a b, rest)

/-- Open an array or object, if the nesting limit allows. -/
def deeper (depth : Nat) (text : List Char)
    (body : Nat → Outcome (α × List Char)) : Outcome (α × List Char) :=
  match depth with
  | 0 => .error (.next .nestingLimit text)
  | depth + 1 => body depth

/-- Read a string. -/
def readText : Reader String := fun _ _ text =>
  match skipSpace text with
  | [] => .error (.here .endInValue [])
  | '"' :: rest => do
      let (body, rest) ← readString rest
      .ok (String.ofList body, rest)
  | rest => .error (unexpected "a string" rest)

/-- Read a truth value. -/
def readFlag : Reader Bool := fun _ _ text =>
  match skipSpace text with
  | [] => .error (.here .endInValue [])
  | 't' :: rest => do
      let rest ← readWord ['r', 'u', 'e'] rest
      .ok (true, rest)
  | 'f' :: rest => do
      let rest ← readWord ['a', 'l', 's', 'e'] rest
      .ok (false, rest)
  | rest => .error (unexpected "a boolean" rest)

/-- Read null or something else. -/
def readNullable (read : Reader α) : Reader (Option α) := fun width depth text =>
  match skipSpace text with
  | 'n' :: rest => do
      let rest ← readWord ['u', 'l', 'l'] rest
      .ok (none, rest)
  | rest => do
      let (a, rest) ← read width depth rest
      .ok (some a, rest)

/-- Read an array of like items. -/
def readList (read : Reader α) : Reader (List α) := fun width depth text =>
  match skipSpace text with
  | [] => .error (.here .endInValue [])
  | '[' :: rest =>
      deeper depth ('[' :: rest) fun depth => do
        let item (items : List α) (text : List Char) := do
          let (a, rest) ← read width depth text
          .ok (a :: items, rest)
        let (items, rest) ← inList rest (foldItems item width 0 [])
        .ok (items.reverse, rest)
  | rest => .error (unexpected "a sequence" rest)

/-- Read fields by position. Fields that are not required may be missing. -/
def readPositions (label : String) (all : List (TextField α)) (width depth : Nat) :
    List (TextField α) → (index : Nat) → α → List Char → Outcome (α × List Char)
  | [], _, a, text => .ok (a, text)
  | field :: fields, index, a, text =>
      match nextItem (index == 0) text with
      | .error f => .error f
      | .ok (false, rest) =>
          if field.required then .error (.late (.wrongLength index (fieldCount label all)) rest)
          else readPositions label all width depth fields (index + 1) a rest
      | .ok (true, rest) =>
          match inside (.index index) (field.store a width depth rest) with
          | .error f => .error f
          | .ok (a, rest) => readPositions label all width depth fields (index + 1) a rest

/-- Read one member of a record, knowing which keys have been seen. -/
def readField (fields : List (TextField α)) (width depth : Nat) (key : String)
    (state : List String × α) (text : List Char) : Outcome ((List String × α) × List Char) :=
  match fields.find? (·.key == key) with
  | none => do
      let skip (text : List Char) : Outcome (Unit × List Char) := do
        let rest ← skipValue width text
        .ok ((), rest)
      let (_, rest) ← readMember key skip text
      .ok (state, rest)
  | some field =>
      if state.1.contains key then .error (.late (.duplicateField key) text)
      else do
        let (a, rest) ← readMember key (field.store state.2 width depth) text
        .ok ((key :: state.1, a), rest)

/-- Read the members of a record in any order. -/
def readFields (fields : List (TextField α)) (width depth : Nat) (blank : α) (text : List Char) :
    Outcome (α × List Char) := do
  let ((seen, a), rest) ← foldMembers (readField fields width depth) width true ([], blank) text
  match firstMissing? fields seen with
  | some key => .error (.late (.missingField key) rest)
  | none => .ok (a, rest)

/-- Read a record in either form. -/
def readRecord (name : String) (fields : List (TextField α)) (blank : α) : Reader α :=
  fun width depth text =>
    match skipSpace text with
    | [] => .error (.here .endInValue [])
    | '[' :: rest =>
        deeper depth ('[' :: rest) fun depth =>
          inList rest (readPositions ("struct " ++ name) fields width depth fields 0 blank)
    | '\x7b' :: rest =>
        deeper depth ('\x7b' :: rest) fun depth =>
          inObject rest (readFields fields width depth blank)
    | rest => .error (unexpected ("struct " ++ name) rest)

/-- Read what stands at the front of a text; what follows it is not looked at. -/
def readWith (read : Reader α) (text : String) : Outcome α := do
  let chars := text.toList
  let (a, _) ← read (chars.length + 1) nestingLimit chars
  .ok a

end FromText

/-- The document a text begins with, with one member per key. -/
def ofText (text : String) : Outcome Json := do
  let value ← readWith readValue text
  .ok value.merged

/-! ## From a value -/

/-- A decoder of values that have been read. -/
abbrev Decoder (α : Type) := Json → Except Cause α

/-- A field taken from a value. -/
abbrev ValueField (α : Type) := Field (α → Decoder α)

section FromValue

variable {α β : Type}

/-- A field decoded by `decode` and stored by `put`. -/
def valueField (required : Bool) (key : String) (decode : Decoder β) (put : α → β → α) :
    ValueField α where
  key := key
  required := required
  store a value := do
    let b ← decode value
    .ok (put a b)

/-- A string. -/
def decodeText : Decoder String
  | .string s => .ok s
  | value => .error (.wrongKind value.found "a string")

/-- A truth value. -/
def decodeFlag : Decoder Bool
  | .boolean b => .ok b
  | value => .error (.wrongKind value.found "a boolean")

/-- A signed word of 64 bits. -/
def decodeInt64 : Decoder Int64
  | .number (.whole n) =>
      match n.toInt64? with
      | some i => .ok i
      | none => .error (.wrongInteger n.value "i64")
  | value => .error (.wrongKind value.found "i64")

/-- An array of like items. -/
def decodeList (decode : Decoder α) : Decoder (List α)
  | .array items => items.mapM decode
  | value => .error (.wrongKind value.found "a sequence")

/-- Decode fields by position, and give back the items that are left. -/
def decodePositions (label : String) (all : List (ValueField α)) :
    List (ValueField α) → (index : Nat) → α → List Json → Except Cause (α × List Json)
  | [], _, a, items => .ok (a, items)
  | field :: fields, index, a, [] =>
      if field.required then .error (.wrongLength index (fieldCount label all))
      else decodePositions label all fields (index + 1) a []
  | field :: fields, index, a, item :: items =>
      match field.store a item with
      | .error cause => .error cause
      | .ok a => decodePositions label all fields (index + 1) a items

/-- Decode the items of a record in array form; none may be left over. -/
def decodeItems (label : String) (fields : List (ValueField α)) (blank : α) (items : List Json) :
    Except Cause α := do
  let (a, surplus) ← decodePositions label fields fields 0 blank items
  if surplus.isEmpty then .ok a
  else
    .error (.wrongLength items.length (elementCount fields.length ++ " in sequence"))

/-- Decode members in order, knowing which keys have been seen. -/
def decodeMembers (fields : List (ValueField α)) :
    List String → α → List (String × Json) → Except Cause (List String × α)
  | seen, a, [] => .ok (seen, a)
  | seen, a, (key, value) :: rest =>
      match fields.find? (·.key == key) with
      | none => decodeMembers fields seen a rest
      | some field =>
          if seen.contains key then .error (.duplicateField key)
          else
            match field.store a value with
            | .error cause => .error cause
            | .ok a => decodeMembers fields (key :: seen) a rest

/-- Decode a record in either form. -/
def decodeRecord (label : String) (fields : List (ValueField α)) (blank : α) : Decoder α
  | .array items => decodeItems label fields blank items
  | .object members => do
      let (seen, a) ← decodeMembers fields [] blank members
      match firstMissing? fields seen with
      | some key => .error (.missingField key)
      | none => .ok a
  | value => .error (.wrongKind value.found label)

end FromValue

end ProtocolCodec.Json
