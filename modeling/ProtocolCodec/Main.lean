import ProtocolCodec.Command

/-!
# The program

Reads the files a command asks for, runs it and puts its answer where it belongs.
-/

namespace ProtocolCodec.Program

/-- A failure of the system as an error of the library. -/
def fileError : IO.Error → FileError
  | .noFileOrDirectory .. => .notFound
  | .alreadyExists .. => .taken
  | error => .other error.toString

/-- The text of a file. -/
def readText (path : String) : IO (Except FileError String) := do
  try
    match String.fromUTF8? (← IO.FS.readBinFile path) with
    | some text => return .ok text
    | none => return .error .notText
  catch error => return .error (fileError error)

/-- Read files into a source that knows no others. -/
def readAll (paths : List String) : IO TextSource := do
  let texts ← paths.mapM fun path => return (path, ← readText path)
  return fun path => (texts.lookup path).getD (.error .notFound)

/-- Do something that can fail. -/
def attempt (action : IO Unit) (failed : FileError → RunError) : IO (Option RunError) := do
  try
    action
    return none
  catch error => return some (failed (fileError error))

/-- Write a file and the directories above it. -/
def deliver (path text : String) : IO (Option RunError) := do
  let parent := (Files.parent? path).getD ""
  let made ←
    if parent = "" then pure none
    else attempt (IO.FS.createDirAll parent) (.makeDirectories parent)
  match made with
  | some error => return some error
  | none => attempt (IO.FS.writeFile path text) (.write path)

/-- Carry out a command; the result says whether it succeeded. -/
def execute (command : Command) : IO (Option RunError) := do
  match command.run (← readAll command.inputs) false with
  | .error error => return some error
  | .ok answer =>
      IO.print answer.stdout
      IO.eprint answer.stderr
      match answer.file with
      | some (path, text) => deliver path text
      | none => return none

end ProtocolCodec.Program

open ProtocolCodec in
/-- Run the program on its arguments. -/
def main (arguments : List String) : IO UInt32 := do
  match CommandLine.parse arguments with
  | .error notice =>
      IO.print notice.output
      if notice.exitCode != 0 then IO.eprint CommandLine.Topic.program.text
      return notice.exitCode
  | .ok command =>
      match ← Program.execute command with
      | none => return 0
      | some error =>
          IO.eprintln (": ".intercalate error.chain)
          return 1
