/-!
# Notices of the command line

What a command line can come to other than a command: a request for help or for the version, or a
mistake. Help and version are answered on the standard output.
-/

namespace ProtocolCodec.CommandLine

/-- What help is about. -/
inductive Topic where
  | program
  | generate
  | stats
  | help
deriving DecidableEq, Repr

/-- Why a command line is no command. -/
inductive Notice where
  | help (topic : Topic)
  | version
  /-- No command is given. -/
  | noCommand
  /-- A command that does not exist. -/
  | unknownCommand
  /-- An option or argument that is not accepted here. -/
  | unknownArgument
  /-- A required option is missing. -/
  | missingOption
  /-- The value of an option is missing or empty. -/
  | invalidValue
  /-- A value for an option that takes none. -/
  | surplusValue
  /-- An option is given twice. -/
  | repeatedOption
deriving DecidableEq, Repr

namespace Topic

/-- The help about the whole program. -/
def programLines : List String :=
  ["generate Rust data types and JSON codecs from a protocol metamodel",
   "",
   "Usage: metamodel-codegen <COMMAND>",
   "",
   "Commands:",
   "  rust   emit Rust types and codecs",
   "  stats  print entity counts for the metamodel",
   "  help   Print this message or the help of the given subcommand(s)",
   "",
   "Options:",
   "  -h, --help     Print help",
   "  -V, --version  Print version"]

/-- The help about generating code. -/
def generateLines : List String :=
  ["emit Rust types and codecs",
   "",
   "Usage: metamodel-codegen rust [OPTIONS] --input <INPUT>",
   "",
   "Options:",
   "  -i, --input <INPUT>    the metamodel JSON document",
   "      --config <CONFIG>  JSON file with `excluded` and `stringAliases` name lists" ++
     " (built-in defaults if omitted)",
   "  -o, --out <OUT>        output .rs file (stdout if omitted)",
   "      --no-op            debugging",
   "  -h, --help             Print help"]

/-- The help about counting declarations. -/
def statsLines : List String :=
  ["print entity counts for the metamodel",
   "",
   "Usage: metamodel-codegen stats --input <INPUT>",
   "",
   "Options:",
   "  -i, --input <INPUT>  the metamodel JSON document",
   "  -h, --help           Print help"]

/-- The help about help. -/
def helpLines : List String :=
  ["Print this message or the help of the given subcommand(s)",
   "",
   "Usage: metamodel-codegen help [COMMAND]...",
   "",
   "Arguments:",
   "  [COMMAND]...  Print help for the subcommand(s)"]

/-- The help about a topic. -/
def lines : Topic → List String
  | program => programLines
  | generate => generateLines
  | stats => statsLines
  | help => helpLines

/-- The help about a topic as text. -/
def text (topic : Topic) : String :=
  String.join (topic.lines.map (· ++ "\n"))

end Topic

namespace Notice

/-- What a notice puts on the standard output. -/
def output : Notice → String
  | help topic => topic.text
  | version => "metamodel-codegen 0.1.0\n"
  | _ => ""

/-- Asking for help or for the version is no mistake. -/
def exitCode : Notice → UInt32
  | help _ => 0
  | version => 0
  | _ => 2

end Notice

end ProtocolCodec.CommandLine
