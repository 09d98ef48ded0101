import ProtocolCodec.Codec.Plan
import ProtocolCodec.Text.Blank
import ProtocolCodec.Text.Quoted

/-!
# The text of a declaration

The target declaration of a plan and, for enumerations and structures, the implementation of its
codec, line by line.
-/

namespace ProtocolCodec

/-- A line of text at some depth of indentation. -/
structure Line where
  depth : Nat
  text : String

namespace Line

/-- A line without text. -/
def empty : Line := ⟨0, ""⟩

/-- The line as written: four blanks a level, and a line feed. -/
def render (line : Line) : String :=
  String.join (List.replicate line.depth "    ") ++ line.text ++ "\n"

/-- Lines as written. -/
def renderAll (lines : List Line) : String :=
  String.join (lines.map render)

end Line

namespace Source

/-! ## Documentation -/

/-- The most characters of a documentation that are carried over. -/
def summaryLimit : Nat := 120

/-- The first line of a documentation that is not blank, trimmed and cut. -/
def summary? (documentation : String) : Option (List Char) :=
  let lines := (Text.lines documentation.toList).map Text.trim
  (lines.find? fun line => !line.isEmpty).map fun line =>
    Text.trimEnd (line.take summaryLimit)

/-- The comment line of a documentation, if it has anything to say. -/
def comment (depth : Nat) (documentation : Option String) : List Line :=
  match documentation.bind summary? with
  | some summary => [⟨depth, "/// " ++ String.ofList summary⟩]
  | none => []

/-! ## Expressions -/

/-- The expression that encodes what stands at `place`. -/
def encodeExpr : Shape → (place : String) → (byReference : Bool) → String
  | .base .string, place, _ => "Value::String(" ++ place ++ ".clone())"
  | .base .integer, place, byReference =>
      "Value::from(" ++ (if byReference then "*" ++ place else place) ++ ")"
  | .base .decimal, place, byReference =>
      "Value::from(" ++ (if byReference then "*" ++ place else place) ++ ")"
  | .base .boolean, place, byReference =>
      "Value::Bool(" ++ (if byReference then "*" ++ place else place) ++ ")"
  | .base .null, _, _ => "Value::Null"
  | .entity _, place, _ => place ++ ".to_json()"
  | .sequence item, place, _ =>
      "Value::Array(" ++ place ++ ".iter().map(|item| " ++ encodeExpr item "item" true ++
        ").collect())"
  | .json, place, _ => place ++ ".clone()"

/-- The function that decodes an element of an array. -/
def elementDecoder : Shape → String
  | .base .string => "|item| Ok(item.as_str().unwrap_or_default().to_string())"
  | .base .integer => "|item| Ok(integer_value(item).unwrap_or_default())"
  | .base .decimal => "|item| Ok(item.as_f64().unwrap_or_default())"
  | .base .boolean => "|item| Ok(item.as_bool().unwrap_or_default())"
  | .base .null => "|item| Ok(item.as_null().unwrap_or_default())"
  | .entity name => name ++ "::from_json"
  | .sequence inner => "|item| decode_array(item, " ++ elementDecoder inner ++ ")"
  | .json => "|item| Ok(item.clone())"

/-- The expression that decodes `input`. -/
def decodeExpr : Shape → (input : String) → String
  | .base .string, input => input ++ ".as_str().ok_or(DecodeError::ExpectedString)?.to_string()"
  | .base .integer, input => "integer_value(" ++ input ++ ").ok_or(DecodeError::ExpectedNumber)?"
  | .base .decimal, input => input ++ ".as_f64().ok_or(DecodeError::ExpectedNumber)?"
  | .base .boolean, input => input ++ ".as_bool().ok_or(DecodeError::ExpectedBoolean)?"
  | .base .null, input => input ++ ".as_null().unwrap_or_default()"
  | .entity name, input => name ++ "::from_json(" ++ input ++ ")?"
  | .sequence item, input => "decode_array(" ++ input ++ ", " ++ elementDecoder item ++ ")?"
  | .json, input => input ++ ".clone()"

/-- The decoding expression of a field, boxed where the field is. -/
def fieldExpr (plan : FieldPlan) (input : String) : String :=
  let decoded := decodeExpr plan.shape input
  if plan.boxed then "Box::new(" ++ decoded ++ ")" else decoded

/-! ## Enumerations -/

/-- The expression an arm is encoded to. -/
def armValue (backing : Backing) (arm : EnumArm) : String :=
  match backing with
  | .text => "Value::String(" ++ Text.Quoted.quote arm.text ++ ".to_string())"
  | .integer => "Value::from(" ++ Text.decimalText arm.integer.toInt ++ "i64)"

/-- The pattern an arm is decoded from. -/
def armPattern (backing : Backing) (arm : EnumArm) : String :=
  match backing with
  | .text => Text.Quoted.quote arm.text
  | .integer => Text.decimalText arm.integer.toInt

/-- The type of an enumeration. -/
def enumerationType (plan : EnumPlan) : List Line :=
  comment 0 plan.documentation ++
  [⟨0, "#[derive(Debug, Clone, Copy, PartialEq, Eq, Hash)]"⟩,
   ⟨0, "pub enum " ++ plan.name ++ " \x7b"⟩] ++
  plan.arms.flatMap (fun arm => comment 1 arm.documentation ++ [⟨1, arm.variant ++ ","⟩]) ++
  [⟨0, "\x7d"⟩]

/-- The encoder of an enumeration. -/
def enumerationEncoder (plan : EnumPlan) : List Line :=
  [⟨1, "fn to_json(&self) -> Value \x7b"⟩,
   ⟨2, "match *self \x7b"⟩] ++
  plan.arms.map (fun arm =>
    ⟨3, "Self::" ++ arm.variant ++ " => " ++ armValue plan.backing arm ++ ","⟩) ++
  [⟨2, "\x7d"⟩, ⟨1, "\x7d"⟩]

/-- What the decoder of an enumeration looks at, and its error for anything else. -/
def scrutinee : Backing → String × String
  | .text => ("value.as_str()", "ExpectedString")
  | .integer => ("integer_value(value)", "ExpectedNumber")

/-- The decoder of an enumeration. -/
def enumerationDecoder (plan : EnumPlan) : List Line :=
  [⟨1, "fn from_json(value: &Value) -> Result<Self, DecodeError> \x7b"⟩,
   ⟨2, "match " ++ (scrutinee plan.backing).1 ++ " \x7b"⟩] ++
  plan.arms.map (fun arm =>
    ⟨3, "Some(" ++ armPattern plan.backing arm ++ ") => Ok(Self::" ++ arm.variant ++ "),"⟩) ++
  [⟨3, "Some(_) => Err(DecodeError::InvalidEnumValue),"⟩,
   ⟨3, "None => Err(DecodeError::" ++ (scrutinee plan.backing).2 ++ "),"⟩,
   ⟨2, "\x7d"⟩, ⟨1, "\x7d"⟩]

/-- The line that opens a codec. -/
def codecHead (name : String) : Line :=
  ⟨0, "impl JsonCodec for " ++ name ++ " \x7b"⟩

/-- An enumeration and its codec. -/
def enumeration (plan : EnumPlan) : List Line :=
  enumerationType plan ++ [.empty, codecHead plan.name] ++ enumerationEncoder plan ++ [.empty] ++
    enumerationDecoder plan ++ [⟨0, "\x7d"⟩]

/-! ## Structures -/

/-- The type of a structure. -/
def recordType (plan : RecordPlan) : List Line :=
  comment 0 plan.documentation ++ [⟨0, "#[derive(Debug, Clone, PartialEq)]"⟩] ++
  if plan.fields.isEmpty then [⟨0, "pub struct " ++ plan.name ++ " \x7b\x7d"⟩]
  else
    [⟨0, "pub struct " ++ plan.name ++ " \x7b"⟩] ++
    plan.fields.flatMap (fun f =>
      comment 1 f.documentation ++ [⟨1, "pub " ++ f.field ++ ": " ++ f.target.spelling ++ ","⟩]) ++
    [⟨0, "\x7d"⟩]

/-- The statement that inserts a member. -/
def insertStatement (plan : FieldPlan) (value : String) : String :=
  "object.insert(" ++ Text.Quoted.quote plan.key ++ ".to_string(), " ++ value ++ ");"

/-- The lines that encode a field. -/
def fieldEncoder (plan : FieldPlan) : List Line :=
  if plan.optional then
    if plan.shape = .base .null then
      [⟨2, "if self." ++ plan.field ++ ".is_some() \x7b"⟩,
       ⟨3, insertStatement plan "Value::Null"⟩,
       ⟨2, "\x7d"⟩]
    else
      [⟨2, "if let Some(value) = &self." ++ plan.field ++ " \x7b"⟩,
       ⟨3, insertStatement plan (encodeExpr plan.shape "value" true)⟩,
       ⟨2, "\x7d"⟩]
  else [⟨2, insertStatement plan (encodeExpr plan.shape ("self." ++ plan.field) false)⟩]

/-- The encoder of a structure. -/
def recordEncoder (fields : List FieldPlan) : List Line :=
  [⟨1, "fn to_json(&self) -> Value \x7b"⟩] ++
  (if fields.isEmpty then [⟨2, "Value::Object(Map::new())"⟩]
   else
     [⟨2, "let mut object = Map::new();"⟩] ++ fields.flatMap fieldEncoder ++
     [⟨2, "Value::Object(object)"⟩]) ++
  [⟨1, "\x7d"⟩]

/-- The lines that decode a field. -/
def fieldDecoder (plan : FieldPlan) : List Line :=
  let key := Text.Quoted.quote plan.key
  if plan.passthrough then [⟨3, plan.field ++ ": object.get(" ++ key ++ ").cloned(),"⟩]
  else if plan.optional then
    [⟨3, plan.field ++ ": match optional_field(object, " ++ key ++ ") \x7b"⟩,
     ⟨4, "Some(field) => Some(" ++ fieldExpr plan "field" ++ "),"⟩,
     ⟨4, "None => None,"⟩,
     ⟨3, "\x7d,"⟩]
  else
    [⟨3, plan.field ++ ": " ++ fieldExpr plan ("required_field(object, " ++ key ++ ")?") ++ ","⟩]

/-- The decoder of a structure. -/
def recordDecoder (fields : List FieldPlan) : List Line :=
  [⟨1, "fn from_json(value: &Value) -> Result<Self, DecodeError> \x7b"⟩] ++
  (if fields.isEmpty then
     [⟨2, "value.as_object().ok_or(DecodeError::ExpectedObject)?;"⟩, ⟨2, "Ok(Self \x7b\x7d)"⟩]
   else
     [⟨2, "let object = value.as_object().ok_or(DecodeError::ExpectedObject)?;"⟩,
      ⟨2, "Ok(Self \x7b"⟩] ++ fields.flatMap fieldDecoder ++ [⟨2, "\x7d)"⟩]) ++
  [⟨1, "\x7d"⟩]

/-- A structure and its codec. -/
def record (plan : RecordPlan) : List Line :=
  recordType plan ++ [.empty, codecHead plan.name] ++ recordEncoder plan.fields ++ [.empty] ++
    recordDecoder plan.fields ++ [⟨0, "\x7d"⟩]

/-! ## Aliases -/

/-- A type alias; it borrows the codec of what it names. -/
def synonym (plan : SynonymPlan) : List Line :=
  comment 0 plan.documentation ++
    [⟨0, "pub type " ++ plan.name ++ " = " ++ plan.target.spelling ++ ";"⟩]

end Source

namespace Plan

/-- The lines of a declaration. -/
def lines : Plan → List Line
  | .enumeration plan => Source.enumeration plan
  | .record plan => Source.record plan
  | .synonym plan => Source.synonym plan

/-- The text of a declaration. -/
def text (plan : Plan) : String :=
  Line.renderAll plan.lines

end Plan

end ProtocolCodec
