import ProtocolCodec.CommandLine.Notice

/-!
# Options of a command

Options are read from left to right. A long option has its value after an equals sign or in the next
argument; short options can be joined, and the rest of the argument is the value of the first one
that takes any. An option without a value yet is open; it is settled only when another option is
accepted or the arguments end, so a mistake further on can come first.
-/

namespace ProtocolCodec.CommandLine

/-- The options of all commands. -/
inductive Key where
  | input
  | config
  | out
  | dump
  | help
deriving DecidableEq, Repr

/-- How an option is given. -/
structure Switch where
  key : Key
  long : String
  short : Option Char := none
  valued : Bool

/-- The options of a command. -/
structure Grammar where
  topic : Topic
  switches : List Switch

/-- The options read so far. -/
structure Reading where
  values : List (Key × String) := []
  flags : List Key := []
  /-- The open option and, where it is known, its value. -/
  pending : Option (Key × Option String) := none

namespace Reading

/-- Keep the value of an option. -/
def store (reading : Reading) (key : Key) (value : String) : Except Notice Reading :=
  if (reading.values.lookup key).isSome then .error .repeatedOption
  else if value = "" then .error .invalidValue
  else .ok { reading with values := reading.values ++ [(key, value)] }

/-- Close the open option. -/
def settle (reading : Reading) : Except Notice Reading :=
  match reading.pending with
  | none => .ok reading
  | some (_, none) => .error .invalidValue
  | some (key, some value) => { reading with pending := none }.store key value

/-- Take an option that has no value. -/
def flag (reading : Reading) (topic : Topic) (key : Key) : Except Notice Reading := do
  let reading ← reading.settle
  if key = .help then .error (.help topic)
  else if reading.flags.contains key then .error .repeatedOption
  else .ok { reading with flags := key :: reading.flags }

/-- Take an option with a value, or open it. -/
def valued (reading : Reading) (key : Key) (value : Option String) : Except Notice Reading := do
  let reading ← reading.settle
  match value with
  | some value => reading.store key value
  | none => .ok { reading with pending := some (key, none) }

/-- Take an argument that is no option: the value of the open option. -/
def plain (reading : Reading) (argument : String) : Except Notice Reading :=
  match reading.pending with
  | some (key, none) => .ok { reading with pending := some (key, some argument) }
  | _ => .error .unknownArgument

end Reading

/-- What an argument looks like. -/
inductive Form where
  /-- The mark after which there are no options. -/
  | separator
  | long (name : List Char) (value : Option (List Char))
  | short (letters : List Char)
  | plain

/-- The form of an argument. -/
def Form.of (argument : List Char) : Form :=
  match argument with
  | ['-', '-'] => .separator
  | '-' :: '-' :: body =>
      let name := body.takeWhile (· != '=')
      match body.dropWhile (· != '=') with
      | _ :: value => .long name (some value)
      | [] => .long name none
  | '-' :: c :: letters => .short (c :: letters)
  | _ => .plain

namespace Grammar

/-- Take a long option. -/
def takeLong (grammar : Grammar) (reading : Reading) (name : List Char)
    (value : Option (List Char)) : Except Notice Reading :=
  match grammar.switches.find? fun switch => switch.long.toList == name with
  | none => .error .unknownArgument
  | some switch =>
      if switch.valued then reading.valued switch.key (value.map String.ofList)
      else if value.isSome then .error .surplusValue
      else reading.flag grammar.topic switch.key

/-- The value joined to a short option; an equals sign before it is dropped. -/
def joinedValue : List Char → Option String
  | [] => none
  | '=' :: value => some (String.ofList value)
  | value => some (String.ofList value)

/-- Take short options that are joined. -/
def takeShort (grammar : Grammar) (reading : Reading) : List Char → Except Notice Reading
  | [] => .ok reading
  | letter :: rest =>
      match grammar.switches.find? fun switch => switch.short == some letter with
      | none => .error .unknownArgument
      | some switch =>
          if switch.valued then reading.valued switch.key (joinedValue rest)
          else
            match reading.flag grammar.topic switch.key with
            | .ok reading => takeShort grammar reading rest
            | .error notice => .error notice

/-- Take an argument; nothing may follow the separator. -/
def take (grammar : Grammar) (reading : Reading) (argument : String) (last : Bool) :
    Except Notice Reading :=
  match Form.of argument.toList with
  | .separator => if last then .ok reading else .error .unknownArgument
  | .long name value => grammar.takeLong reading name value
  | .short letters => grammar.takeShort reading letters
  | .plain => reading.plain argument

/-- Read arguments from left to right. -/
def readFrom (grammar : Grammar) (reading : Reading) : List String → Except Notice Reading
  | [] => reading.settle
  | argument :: rest =>
      match grammar.take reading argument rest.isEmpty with
      | .ok reading => readFrom grammar reading rest
      | .error notice => .error notice

/-- Read all arguments. -/
def read (grammar : Grammar) (arguments : List String) : Except Notice Reading :=
  grammar.readFrom {} arguments

end Grammar

end ProtocolCodec.CommandLine
