import ProtocolCodec.Emission

/-!
# Report lines

How the events of a run read in a log: a level, the part of the program that speaks, a message and
named values. Names from the schema are quoted, all other values are plain, so that an entry spans
several lines where such a value has line ends.
-/

namespace ProtocolCodec

namespace Summary

/-- The counts of a summary with their names. -/
def counts (summary : Summary) : List (String × Nat) :=
  [("enumerations", summary.enumerations),
   ("structures", summary.structures),
   ("aliases", summary.aliases),
   ("excluded", summary.excluded),
   ("duplicates", summary.duplicates),
   ("requests", summary.requests),
   ("notifications", summary.notifications)]

end Summary

namespace Event

/-- A named value in a report. -/
def value (name content : String) : String :=
  " " ++ name ++ "=" ++ content

/-- The values of a summary. -/
def summaryValues (summary : Summary) : String :=
  value "version" summary.version ++
    String.join (summary.counts.map fun (name, n) => value name (Text.decimalText n))

/-- The entry of an event in a log. -/
def entry : Event → String
  | excluded name =>
      "DEBUG metamodel_codegen::codegen: excluded, skipping" ++
        value "name" (Text.Quoted.quote name)
  | repeated name =>
      "DEBUG metamodel_codegen::codegen: already emitted, skipping" ++
        value "name" (Text.Quoted.quote name)
  | droppedVariant enumeration variant =>
      "WARN metamodel_codegen::codegen::codec: duplicate variant dropped" ++
        value "enumeration" enumeration ++ value "variant" variant
  | finished summary =>
      "INFO metamodel_codegen::codegen: generation finished" ++ summaryValues summary

/-- The text of a log, with a line end after every entry. -/
def log (events : List Event) : String :=
  String.join (events.map fun event => event.entry ++ "\n")

/-- The lines of a log, without the blanks in front. -/
def logLines (events : List Event) : List String :=
  (Text.lines (log events).toList).map fun line => String.ofList (Text.trimStart line)

end Event

end ProtocolCodec
