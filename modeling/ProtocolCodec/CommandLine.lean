import ProtocolCodec.CommandLine.Options

/-!
# The command line

The program has two commands: one generates code for a metamodel, the other counts what it declares.
-/

namespace ProtocolCodec

/-- What to generate code from and where to. -/
structure GenerateOptions where
  input : String
  config : Option String := none
  out : Option String := none
  /-- Only show the options. -/
  dump : Bool := false
deriving DecidableEq, Repr

/-- A command of the program. -/
inductive Command where
  | generate (options : GenerateOptions)
  | stats (input : String)
deriving DecidableEq, Repr

namespace CommandLine

/-- The options for generating code. -/
def generateGrammar : Grammar where
  topic := .generate
  switches :=
    [{ key := .input, long := "input", short := some 'i', valued := true },
     { key := .config, long := "config", valued := true },
     { key := .out, long := "out", short := some 'o', valued := true },
     { key := .dump, long := "no-op", valued := false },
     { key := .help, long := "help", short := some 'h', valued := false }]

/-- The options for counting declarations. -/
def statsGrammar : Grammar where
  topic := .stats
  switches :=
    [{ key := .input, long := "input", short := some 'i', valued := true },
     { key := .help, long := "help", short := some 'h', valued := false }]

/-- The input every command needs. -/
def requiredInput (reading : Reading) : Except Notice String :=
  match reading.values.lookup .input with
  | some input => .ok input
  | none => .error .missingOption

/-- Parse the arguments for generating code. -/
def parseGenerate (arguments : List String) : Except Notice Command := do
  let reading ← generateGrammar.read arguments
  let input ← requiredInput reading
  .ok (.generate
    { input
      config := reading.values.lookup .config
      out := reading.values.lookup .out
      dump := reading.flags.contains .dump })

/-- Parse the arguments for counting declarations. -/
def parseStats (arguments : List String) : Except Notice Command := do
  let reading ← statsGrammar.read arguments
  let input ← requiredInput reading
  .ok (.stats input)

/-- The topic of a command name. -/
def topic? (name : String) : Option Topic :=
  if name = "rust" then some .generate
  else if name = "stats" then some .stats
  else if name = "help" then some .help
  else none

/-- What the help command comes to. -/
def parseHelp : List String → Notice
  | [] => .help .program
  | [name] =>
      match topic? name with
      | some topic => .help topic
      | none => .unknownCommand
  | _ => .unknownCommand

/-- What an option before any command comes to. -/
def parseLong (name : List Char) (value : Option (List Char)) : Notice :=
  let asked : Option Notice :=
    if name = "help".toList then some (.help .program)
    else if name = "version".toList then some .version
    else none
  match asked, value with
  | none, _ => .unknownArgument
  | some _, some _ => .surplusValue
  | some notice, none => notice

/-- What short options before any command come to. The first one decides. -/
def parseShort : List Char → Notice
  | 'h' :: _ => .help .program
  | 'V' :: _ => .version
  | _ => .unknownArgument

/-- What arguments after the separator come to: there are no commands there. -/
def parseSeparated : List String → Notice
  | [] => .noCommand
  | name :: _ => if (topic? name).isSome then .unknownArgument else .unknownCommand

/-- Parse the arguments of the program. -/
def parse : List String → Except Notice Command
  | [] => .error .noCommand
  | argument :: rest =>
      match Form.of argument.toList with
      | .separator => .error (parseSeparated rest)
      | .long name value => .error (parseLong name value)
      | .short letters => .error (parseShort letters)
      | .plain =>
          match topic? argument with
          | some .generate => parseGenerate rest
          | some .stats => parseStats rest
          | some .help => .error (parseHelp rest)
          | _ => .error .unknownCommand

end CommandLine

end ProtocolCodec
