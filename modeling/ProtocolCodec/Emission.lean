import ProtocolCodec.Codec.Source

/-!
# Emission runs

A run turns metamodels into text, one after the other. It keeps the blocks written so far, from
which the registry of emitted names and the text follow, the counts, and what it has to report.
Declarations come in a fixed order: enumerations, structures, aliases. A type name that is excluded
or has been emitted before gets no block.
-/

namespace ProtocolCodec

/-- A declaration of a metamodel. -/
inductive Declaration where
  | enumeration (e : Enumeration)
  | record (s : Structure)
  | synonym (a : TypeAlias)

namespace Declaration

/-- The name the schema gives a declaration. -/
def name : Declaration → String
  | enumeration e => e.name
  | record s => s.name
  | synonym a => a.name

/-- The name of the declared type. -/
def typeName (declaration : Declaration) : String :=
  Naming.typeName declaration.name

end Declaration

/-- The declarations of a metamodel in the order of emission. -/
def Model.declarations (model : Model) : List Declaration :=
  model.enumerations.map .enumeration ++ model.structures.map .record ++
    model.aliases.map .synonym

namespace Plan

/-- The name of the declared type. -/
def name : Plan → String
  | enumeration plan => plan.name
  | record plan => plan.name
  | synonym plan => plan.name

end Plan

/-- The plan of a declaration. -/
def Context.plan (context : Context) : Declaration → Plan
  | .enumeration e => .enumeration (context.planEnumeration (Naming.typeName e.name) e)
  | .record s =>
      .record (context.planRecord (Naming.typeName s.name) s (context.catalog.flatten s))
  | .synonym a => .synonym (context.planSynonym (Naming.typeName a.name) a)

/-- A part of the output. -/
inductive Block where
  /-- The line that opens the output of a metamodel. -/
  | banner (version : String)
  | entity (plan : Plan)

namespace Block

/-- The text of a block. An entity has an empty line before it. -/
def text : Block → String
  | banner version =>
      "// Generated from protocol metamodel version " ++ version ++ ". Do not edit.\n"
  | entity plan => "\n" ++ plan.text

/-- The name of the type declared in a block. -/
def name? : Block → Option String
  | banner _ => none
  | entity plan => some plan.name

end Block

/-- The counts of a run. The version and the numbers of messages are those of the last metamodel,
the others add up. -/
structure Summary where
  version : String := ""
  enumerations : Nat := 0
  structures : Nat := 0
  aliases : Nat := 0
  excluded : Nat := 0
  duplicates : Nat := 0
  requests : Nat := 0
  notifications : Nat := 0
deriving DecidableEq, Repr

namespace Summary

/-- Count an emitted declaration. -/
def count (summary : Summary) : Declaration → Summary
  | .enumeration _ => { summary with enumerations := summary.enumerations + 1 }
  | .record _ => { summary with structures := summary.structures + 1 }
  | .synonym _ => { summary with aliases := summary.aliases + 1 }

end Summary

/-- What a run reports. -/
inductive Event where
  /-- A declaration whose type name is excluded. -/
  | excluded (name : String)
  /-- A declaration whose type name has been emitted before. -/
  | repeated (name : String)
  /-- A variant whose name occurs earlier in its enumeration. -/
  | droppedVariant (enumeration variant : String)
  | finished (summary : Summary)
deriving DecidableEq, Repr

/-- The state of a run. -/
structure Run where
  settings : Settings
  blocks : List Block := []
  summary : Summary := {}
  events : List Event := []

namespace Run

/-- The names emitted so far, in order. -/
def registry (run : Run) : List String :=
  run.blocks.filterMap Block.name?

/-- The text emitted so far. -/
def text (run : Run) : String :=
  String.join (run.blocks.map Block.text)

/-- Add reports. -/
def report (run : Run) (events : List Event) : Run :=
  { run with events := run.events ++ events }

/-- What there is to report about a declaration that is emitted. -/
def remarks : Declaration → List Event
  | .enumeration e =>
      e.droppedVariants.map (.droppedVariant (Naming.typeName e.name))
  | _ => []

/-- Emit a declaration, unless its type name is excluded or taken. -/
def declare (context : Context) (run : Run) (declaration : Declaration) : Run :=
  if run.settings.isExcluded declaration.typeName then
    { run.report [.excluded declaration.name] with
      summary := { run.summary with excluded := run.summary.excluded + 1 } }
  else if run.registry.contains declaration.typeName then
    { run.report [.repeated declaration.name] with
      summary := { run.summary with duplicates := run.summary.duplicates + 1 } }
  else
    { run.report (remarks declaration) with
      blocks := run.blocks ++ [.entity (context.plan declaration)]
      summary := run.summary.count declaration }

/-- Start on a metamodel. -/
def begin (run : Run) (model : Model) : Run :=
  { run with
    blocks := run.blocks ++ [.banner model.version]
    summary :=
      { run.summary with
        version := model.version
        requests := model.requests.length
        notifications := model.notifications.length } }

/-- Emit a metamodel. -/
def emit (run : Run) (model : Model) : Run :=
  let context := Context.ofModel model run.settings
  let done := model.declarations.foldl (declare context) (run.begin model)
  done.report [.finished done.summary]

end Run

/-- The text of a metamodel emitted in a run of its own. -/
def generate (model : Model) (settings : Settings) : String :=
  (Run.emit { settings } model).text

end ProtocolCodec
