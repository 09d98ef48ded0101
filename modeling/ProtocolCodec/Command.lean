import ProtocolCodec.CommandLine
import ProtocolCodec.Emission
import ProtocolCodec.Load

/-!
# Running commands

A command reads one or two files and answers with text for the standard output or for a file.
Nothing is written before everything has been read, and nothing is printed by a command that fails.
-/

namespace ProtocolCodec

/-- Why a command fails. -/
inductive RunError where
  | model (path : String) (error : LoadError)
  | settings (path : String) (error : LoadError)
  | makeDirectories (path : String) (error : FileError)
  | write (path : String) (error : FileError)

namespace RunError

/-- The messages of an error and of what brought it about, outermost first. -/
def chain : RunError → List String
  | model path error => ("failed to load metamodel " ++ path) :: error.chain
  | settings path error => ("failed to load generator config " ++ path) :: error.chain
  | makeDirectories path error => ["failed to create " ++ path, error.message]
  | write path error => ["failed to write " ++ path, error.message]

end RunError

/-- What a command that has read its files answers. -/
structure Answer where
  stdout : String := ""
  stderr : String := ""
  /-- A file to write, with its text. -/
  file : Option (String × String) := none
deriving DecidableEq, Repr

namespace GenerateOptions

/-- A named option with an optional path. -/
def showOption (name : String) (path : Option String) : List Line :=
  match path with
  | none => [⟨3, name ++ ": None,"⟩]
  | some path =>
      [⟨3, name ++ ": Some("⟩, ⟨4, Text.Quoted.quote path ++ ","⟩, ⟨3, "),"⟩]

/-- The options, laid out for reading. -/
def layout (options : GenerateOptions) : List Line :=
  [⟨0, "CommandLineInterface \x7b"⟩,
   ⟨1, "cmd: Rust("⟩,
   ⟨2, "RustOut \x7b"⟩,
   ⟨3, "input_settings: InputSettings \x7b"⟩,
   ⟨4, "input: " ++ Text.Quoted.quote options.input ++ ","⟩,
   ⟨3, "\x7d,"⟩] ++
  showOption "config" options.config ++
  showOption "out" options.out ++
  [⟨3, "no_op: " ++ (if options.dump then "true" else "false") ++ ","⟩,
   ⟨2, "\x7d,"⟩,
   ⟨1, "),"⟩,
   ⟨0, "\x7d"⟩]

/-- The settings asked for; the standard ones when no file is given. -/
def settings (source : TextSource) (options : GenerateOptions) : Except RunError Settings :=
  match options.config with
  | none => .ok .standard
  | some path => (Settings.load source path).mapError (.settings path)

/-- Generate code, or only show the options. -/
def run (source : TextSource) (options : GenerateOptions) : Except RunError Answer :=
  if options.dump then .ok { stderr := Line.renderAll options.layout }
  else do
    let model ← (Model.load source options.input).mapError (.model options.input)
    let settings ← options.settings source
    let text := ProtocolCodec.generate model settings
    match options.out with
    | some path => .ok { file := some (path, text) }
    | none => .ok { stdout := text }

end GenerateOptions

/-- A way to set off text on a terminal. -/
inductive Style where
  | bold
  | cyan
  | green
deriving DecidableEq, Repr

namespace Style

/-- The number of a style. -/
def code : Style → String
  | bold => "1"
  | cyan => "36"
  | green => "32"

/-- The sequence that switches a style on. -/
def start (style : Style) : String :=
  "\x1b[" ++ style.code ++ "m"

/-- Switch a style on again after every reset inside a text, so that the style reaches to the end of
the text. A reset can only begin at an escape, so no two of them overlap. -/
def resumeAfterReset (start : List Char) : List Char → List Char
  | '\x1b' :: '[' :: '0' :: 'm' :: rest =>
      '\x1b' :: '[' :: '0' :: 'm' :: (start ++ resumeAfterReset start rest)
  | c :: rest => c :: resumeAfterReset start rest
  | [] => []

/-- Set off a text, where colour is wanted. -/
def apply (colour : Bool) (style : Style) (text : String) : String :=
  if colour then
    style.start ++ String.ofList (resumeAfterReset style.start.toList text.toList) ++ "\x1b[0m"
  else text

end Style

namespace Model

/-- The numbers of declarations and messages, with their labels. -/
def counts (model : Model) : List (String × Nat) :=
  [("enumerations", model.enumerations.length),
   ("structures", model.structures.length),
   ("type aliases", model.aliases.length),
   ("requests", model.requests.length),
   ("notifications", model.notifications.length)]

/-- The width of the column of labels. -/
def labelWidth : Nat := 14

/-- One row of the counts. -/
def countRow (colour : Bool) (label : String) (count : Nat) : String :=
  "  " ++ label ++ String.ofList (List.replicate (labelWidth - label.length) ' ') ++ " " ++
    Style.green.apply colour (Text.decimalText count) ++ "\n"

/-- The counts as text. -/
def statistics (colour : Bool) (model : Model) : String :=
  Style.bold.apply colour "metamodel" ++ " " ++ Style.cyan.apply colour model.version ++ "\n" ++
    String.join (model.counts.map fun (label, count) => countRow colour label count)

end Model

namespace Command

/-- The files a command reads, in order. -/
def inputs : Command → List String
  | generate options =>
      if options.dump then [] else options.input :: options.config.toList
  | stats input => [input]

/-- Run a command on what it can read. -/
def run (source : TextSource) (colour : Bool) : Command → Except RunError Answer
  | generate options => options.run source
  | stats input => do
      let model ← (Model.load source input).mapError (.model input)
      .ok { stdout := model.statistics colour }

end Command

/-- What a command has come to. -/
structure Conclusion where
  stdout : String
  stderr : String
  error : Option RunError
  /-- The files afterwards. -/
  tree : FileTree

namespace FileTree

/-- Write a file and the directories above it. -/
def deliver (tree : FileTree) (path text : String) : Option RunError × FileTree :=
  let parent := (Files.parent? path).getD ""
  match tree.makeDirectories parent with
  | (some error, tree) => (some (.makeDirectories parent error), tree)
  | (none, tree) =>
      match tree.writeText path text with
      | .error error => (some (.write path error), tree)
      | .ok tree => (none, tree)

/-- Carry out a command on a file tree. -/
def execute (tree : FileTree) (colour : Bool) (command : Command) : Conclusion :=
  match command.run tree.readText colour with
  | .error error => ⟨"", "", some error, tree⟩
  | .ok answer =>
      match answer.file with
      | none => ⟨answer.stdout, answer.stderr, none, tree⟩
      | some (path, text) =>
          let (error, tree) := tree.deliver path text
          ⟨answer.stdout, answer.stderr, error, tree⟩

end FileTree

/-- What the whole program has come to. -/
structure Finish where
  exitCode : UInt32
  stdout : String
  tree : FileTree

/-- Run the program on a file tree, without colour. -/
def FileTree.runProgram (tree : FileTree) (arguments : List String) : Finish :=
  match CommandLine.parse arguments with
  | .error notice => ⟨notice.exitCode, notice.output, tree⟩
  | .ok command =>
      let outcome := tree.execute false command
      ⟨if outcome.error.isSome then 1 else 0, outcome.stdout, outcome.tree⟩

end ProtocolCodec
