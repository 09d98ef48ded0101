import ProtocolCodec.Proofs.Json.Slots
import ProtocolCodec.Model.Reader

/-!
# Metamodels read in two ways

A metamodel is read from a text in one pass. Here is the decoder of documents that its reader
follows. The outermost types are where the two differ most: their members are kept while the tag is
looked for, and what is kept is decoded in the end. So a type is decoded like one inside another,
but within the depth that is left, and with its tag spelled out.
-/

namespace ProtocolCodec

open Json

/-! ## Types -/

namespace TypeKind

/-- A tag given by its spelling. -/
def decodeSpelled : Decoder TypeKind
  | .string s => ofTag s
  | value => .error (.wrongKind value.found "variant identifier")

theorem follows_read : Follows read fun _ => decodeSpelled := by
  intro width depth text document rest h
  unfold read
  rcases h.string_cases with ⟨tail, chars, htext, hstring, rfl⟩ | ⟨⟨c, tail, htext, hquote⟩, hother⟩
  · simp only [htext, hstring, bind, Except.bind, decodeSpelled]
    cases ofTag (String.ofList chars) <;> rfl
  · have hdecode : (decodeSpelled document).toOption = none := by
      unfold decodeSpelled
      split
      · exact absurd rfl (hother _)
      · rfl
    rw [hdecode, htext]
    split
    next heq => cases heq
    next heq => exact absurd (List.cons.inj heq).1 hquote
    next => rfl

theorem decodeSpelled_eq_ok {value : Json} {kind : TypeKind} (h : decodeSpelled value = .ok kind) :
    decode value = .ok kind ∧ value.height = 0 := by
  unfold decodeSpelled at h
  split at h
  · exact ⟨h, rfl⟩
  · cases h

end TypeKind

namespace TypeExpr

/-- Whether a member may stand in an outermost type: its tag is spelled out. -/
def spelledMember (member : String × Json) : Bool :=
  member.1 != "kind" || (TypeKind.decodeSpelled member.2).toBool

/-- Whether the tag of a type, where there is one, is spelled out. -/
def spelled : Json → Bool
  | .object members => members.all spelledMember
  | .array (tag :: _) => (TypeKind.decodeSpelled tag).toBool
  | _ => true

/-- Decode a type that is not inside another one. -/
def decodeOutermost (depth : Nat) : Decoder TypeExpr := fun value =>
  if value.height ≤ depth ∧ spelled value then decode (depth + 1) value else .error .nestingLimit

/-- Take one member of an outermost type: its tag decoded, any other member whole. -/
def nextTagged (depth : Nat) (key : String) (state : Option TypeKind × Members) (value : Json) :
    Option (Option TypeKind × Members) :=
  if key = "kind" then
    if state.1.isSome then none
    else (TypeKind.decodeSpelled value).toOption.map (some ·, state.2)
  else (decodeBounded depth value).toOption.map fun value => (state.1, (key, value) :: state.2)

/-- The step over a member of a tagged object comes to the step over the member, failures aside. -/
theorem toOption_readTagged {width depth : Nat} {key : String} {state : Option TypeKind × Members}
    {text content rest : List Char} {value : Json} (hcolon : readColon text = .ok content)
    (h : Spells width content value rest) :
    (readTagged width depth key state text).toOption =
      (nextTagged depth key state value).map (·, rest) := by
  unfold readTagged nextTagged
  split
  · split
    · rfl
    · have hread := TypeKind.follows_read width depth content value rest h
      rw [toOption_bind, toOption_readMember hcolon, hread]
      dsimp only
      cases TypeKind.decodeSpelled value <;> rfl
  · rw [toOption_bind, toOption_readMember hcolon, follows_readValue _ _ _ _ _ h]
    cases decodeBounded depth value <;> rfl

/-- Taking the members one by one is splitting off the tag, within the depth. -/
theorem foldlM_nextTagged (depth : Nat) (members done : Members) (kind? : Option TypeKind) :
    members.foldlM (fun state member => nextTagged depth member.1 state member.2) (kind?, done) =
      if heightMembers members ≤ depth ∧ members.all spelledMember then
        (splitTag kind? members).toOption.map fun (kind?, others) => (kind?, others.reverse ++ done)
      else none := by
  induction members generalizing kind? done with
  | nil => simp [heightMembers, splitTag, Except.toOption]
  | cons member members ih =>
      obtain ⟨key, value⟩ := member
      rw [List.foldlM_cons, splitTag, nextTagged, heightMembers, List.all_cons, spelledMember]
      simp only [Nat.max_le]
      by_cases hkey : key = "kind"
      · subst hkey
        cases kind? with
        | some kind => simp [Except.toOption]
        | none =>
            -- A tag that is not spelled out stops the walk, whatever it could stand for.
            cases hspelled : TypeKind.decodeSpelled value with
            | error cause => simp [Except.toOption, Except.toBool]
            | ok kind =>
                obtain ⟨hdecode, hheight⟩ := TypeKind.decodeSpelled_eq_ok hspelled
                have hnext := ih done (some kind)
                simp only [hdecode, hheight, Nat.zero_le, true_and, Except.toBool, Bool.or_true,
                  Bool.true_and]
                exact hnext
      · by_cases hvalue : value.height ≤ depth
        · have hbounded : decodeBounded depth value = .ok value := if_pos hvalue
          have hnext := ih ((key, value) :: done) kind?
          have hother : (key != "kind") = true := bne_iff_ne.mpr hkey
          simp only [hkey, if_false, hbounded, hvalue, true_and, hother, Bool.true_or,
            Bool.true_and]
          change List.foldlM _ (kind?, (key, value) :: done) members = _
          rw [hnext]
          cases splitTag kind? members <;> simp [Except.toOption]
        · have hbounded : decodeBounded depth value = .error .nestingLimit := if_neg hvalue
          simp [hkey, hbounded, hvalue, Except.toOption]

/-- Reading an object with a tag comes to splitting it, within the nesting limit. -/
theorem toOption_readObject {width depth : Nat} {text tail : List Char} {members : Members}
    (hmembers : Entries (Spells width) true text members tail) (hlength : members.length < width) :
    (readObject width depth text).toOption =
      if heightMembers members ≤ depth ∧ members.all spelledMember then
        (split (.object members)).toOption.map (·, tail)
      else none := by
  have hstep : ∀ key state text content value rest, readColon text = .ok content →
      Spells width content value rest → (readTagged width depth key state text).toOption =
        (nextTagged depth key state value).map (·, rest) :=
    fun _ _ _ _ _ _ hcolon hread => toOption_readTagged hcolon hread
  rw [readObject, toOption_bind, hmembers.toOption_foldMembers hstep hlength, foldlM_nextTagged]
  split
  · rw [split, toOption_bind]
    cases splitTag none members with
    | error cause => rfl
    | ok pair =>
        obtain ⟨kind?, others⟩ := pair
        cases kind? <;> simp [Except.toOption]
  · rfl

/-- Reading an array with a tag comes to splitting it, within the nesting limit. -/
theorem toOption_readArray {width depth : Nat} {text tail : List Char} {items : List Json}
    (hitems : Items (Spells width) true text items tail) (hlength : items.length < width) :
    (readArray width depth text).toOption =
      if heightItems items ≤ depth ∧ spelled (.array items) then
        (split (.array items)).toOption.map (·, tail)
      else none := by
  cases hitems with
  | done hnext =>
      rw [readArray, hnext]
      simp [heightItems, spelled, split, Except.toOption, bind, Except.bind]
  | @next _ _ body behind _ tag items hnext hread hitems =>
      have htag := TypeKind.follows_read width depth body tag behind hread
      have hgather :
          (foldItems (collectItem readValue width depth) width 1 [] behind).toOption = _ :=
        hitems.toOption_gather (follows_readValue width depth) (Nat.lt_of_succ_lt hlength) rfl
      rw [mapM_decodeBounded] at hgather
      rw [readArray, hnext]
      change Except.toOption (inside (.index 0) (TypeKind.read width depth body) >>=
        fun read => foldItems (collectItem readValue width depth) width 1 [] read.2 >>=
          fun found => .ok ((read.1, Json.array found.1.reverse), found.2)) = _
      rw [toOption_bind, toOption_inside, htag]
      simp only [heightItems, Nat.max_le, spelled, split]
      cases hspelled : TypeKind.decodeSpelled tag with
      | error cause => simp [Except.toOption, Except.toBool]
      | ok kind =>
          obtain ⟨hdecode, hheight⟩ := TypeKind.decodeSpelled_eq_ok hspelled
          change Except.toOption
            (foldItems (collectItem readValue width depth) width 1 [] behind >>=
              fun found => .ok ((kind, Json.array found.1.reverse), found.2)) = _
          rw [toOption_bind, hgather, hdecode, hheight]
          simp only [Nat.zero_le, true_and, Except.toBool, and_true]
          split
          · simp [Except.toOption, bind, Except.bind]
          · rfl

theorem toOption_split {document : Json} (harray : ∀ items, document ≠ .array items)
    (hobject : ∀ members, document ≠ .object members) : (split document).toOption = none := by
  unfold split
  split
  · exact absurd rfl (hobject _)
  · exact absurd rfl (harray _)
  · exact absurd rfl (harray _)
  · rfl

/-- The tag and the content of an outermost type are read as they are split. -/
theorem toOption_readSplit {width depth : Nat} {text rest : List Char} {document : Json}
    (h : Spells width text document rest) :
    (readSplit width depth text).toOption =
      if document.height ≤ depth ∧ spelled document then (split document).toOption.map (·, rest)
      else none := by
  unfold readSplit
  cases h.level with
  | scalar hbracket hbrace hscalar =>
      obtain ⟨harray, hobject⟩ := scalar_of_readScalar hscalar
      rw [toOption_split harray hobject, Option.map_none, ite_self]
      split
      next => rfl
      next heq => exact absurd heq (hbracket _)
      next heq => exact absurd heq (hbrace _)
      next => rfl
  | array hbody hlength hitems hclose =>
      rw [hbody]
      cases depth with
      | zero => simp [deeper, height, Except.toOption]
      | succ depth =>
          change Except.toOption (inList _ (readArray width depth)) = _
          rw [toOption_inList, toOption_readArray hitems hlength, height]
          simp only [Nat.add_le_add_iff_right]
          split
          · cases split _ <;> simp [Except.toOption, hclose]
          · rfl
  | object hbody hlength hmembers hclose =>
      rw [hbody]
      cases depth with
      | zero => simp [deeper, height, Except.toOption]
      | succ depth =>
          change Except.toOption (inObject _ (readObject width depth)) = _
          rw [toOption_inObject, toOption_readObject hmembers hlength, height, spelled]
          simp only [Nat.add_le_add_iff_right]
          split
          · cases split _ <;> simp [Except.toOption, hclose]
          · rfl

theorem follows_read : Follows read decodeOutermost := by
  intro width depth text document rest h
  rw [read, toOption_bind, toOption_readSplit h, decodeOutermost]
  split
  · rw [decode]
    cases split document with
    | error cause => rfl
    | ok pair =>
        obtain ⟨kind, content⟩ := pair
        simp only [Except.toOption, Option.map_some, Option.bind_some]
        cases decodeContent (decode depth) kind content <;> rfl
  · rfl

end TypeExpr

/-! ## Declarations -/

namespace EnumLiteral

/-- A literal within the depth. -/
def decode (depth : Nat) : Decoder EnumLiteral := fun value => do
  let value ← decodeBounded depth value
  match ofJson? value with
  | some literal => .ok literal
  | none => .error (.noAlternative "EnumLiteral")

theorem follows_read : Follows read decode := by
  intro width depth text document rest h
  rw [read, decode, toOption_bind, toOption_bind,
    follows_readValue width depth text document rest h]
  cases decodeBounded depth document with
  | error cause => rfl
  | ok value =>
      simp only [Except.toOption, Option.map_some, Option.bind_some]
      cases ofJson? value <;> rfl

end EnumLiteral

namespace Message

def slots : List (Slot Message) :=
  [⟨true, "method", follows_readText, fun m method => { m with method }⟩,
   ⟨false, "messageDirection", follows_readText.nullable, fun m direction => { m with direction }⟩,
   ⟨false, "documentation", follows_readText.nullable, fun m documentation =>
     { m with documentation }⟩]

/-- A request or a notification. -/
def decode : Nat → Decoder Message :=
  opened fun depth => decodeRecord "message" (slots.map (Slot.value depth)) default

/-- Reading a message follows decoding it. -/
theorem follows_readRecord (name : String) : Follows (readRecord name fields default) decode :=
  .record name _ slots default

end Message

namespace Property

def slots : List (Slot Property) :=
  [⟨true, "name", follows_readText, fun p name => { p with name }⟩,
   ⟨true, "type", TypeExpr.follows_read, fun p type => { p with type }⟩,
   ⟨false, "optional", follows_readFlag, fun p optional => { p with optional }⟩,
   ⟨false, "documentation", follows_readText.nullable, fun p documentation =>
     { p with documentation }⟩]

def decode : Nat → Decoder Property :=
  opened fun depth =>
    decodeRecord "struct Property" (slots.map (Slot.value depth)) { name := "", type := default }

theorem follows_read : Follows read decode :=
  .record _ _ slots _

end Property

namespace Structure

def slots : List (Slot Structure) :=
  [⟨true, "name", follows_readText, fun s name => { s with name }⟩,
   ⟨false, "properties", Property.follows_read.list, fun s properties => { s with properties }⟩,
   ⟨false, "extends", TypeExpr.follows_read.list, fun s extended => { s with extended }⟩,
   ⟨false, "mixins", TypeExpr.follows_read.list, fun s mixins => { s with mixins }⟩,
   ⟨false, "documentation", follows_readText.nullable, fun s documentation =>
     { s with documentation }⟩]

def decode : Nat → Decoder Structure :=
  opened fun depth =>
    decodeRecord "struct Structure" (slots.map (Slot.value depth)) { name := "" }

theorem follows_read : Follows read decode :=
  .record _ _ slots _

end Structure

namespace EnumMember

def slots : List (Slot EnumMember) :=
  [⟨true, "name", follows_readText, fun m name => { m with name }⟩,
   ⟨true, "value", EnumLiteral.follows_read, fun m value => { m with value }⟩,
   ⟨false, "documentation", follows_readText.nullable, fun m documentation =>
     { m with documentation }⟩]

def decode : Nat → Decoder EnumMember :=
  opened fun depth =>
    decodeRecord "struct EnumValue" (slots.map (Slot.value depth)) { name := "", value := default }

theorem follows_read : Follows read decode :=
  .record _ _ slots _

end EnumMember

namespace Enumeration

def slots : List (Slot Enumeration) :=
  [⟨true, "name", follows_readText, fun e name => { e with name }⟩,
   ⟨true, "type", TypeExpr.follows_read, fun e type => { e with type }⟩,
   ⟨false, "values", EnumMember.follows_read.list, fun e values => { e with values }⟩,
   ⟨false, "supportsCustomValues", follows_readFlag, fun e supportsCustomValues =>
     { e with supportsCustomValues }⟩,
   ⟨false, "documentation", follows_readText.nullable, fun e documentation =>
     { e with documentation }⟩]

def decode : Nat → Decoder Enumeration :=
  opened fun depth =>
    decodeRecord "struct Enumeration" (slots.map (Slot.value depth)) { name := "", type := default }

theorem follows_read : Follows read decode :=
  .record _ _ slots _

end Enumeration

namespace TypeAlias

def slots : List (Slot TypeAlias) :=
  [⟨true, "name", follows_readText, fun a name => { a with name }⟩,
   ⟨true, "type", TypeExpr.follows_read, fun a type => { a with type }⟩,
   ⟨false, "documentation", follows_readText.nullable, fun a documentation =>
     { a with documentation }⟩]

def decode : Nat → Decoder TypeAlias :=
  opened fun depth =>
    decodeRecord "struct TypeAlias" (slots.map (Slot.value depth)) { name := "", type := default }

theorem follows_read : Follows read decode :=
  .record _ _ slots _

end TypeAlias

namespace Model

def metaDataSlots : List (Slot String) :=
  [⟨true, "version", follows_readText, fun _ version => version⟩]

def decodeMetaData : Nat → Decoder String :=
  opened fun depth => decodeRecord "struct MetaData" (metaDataSlots.map (Slot.value depth)) ""

theorem follows_metaData : Follows (readRecord "MetaData" metaDataFields "") decodeMetaData :=
  .record _ _ metaDataSlots _

def slots : List (Slot Model) :=
  [⟨true, "metaData", follows_metaData, fun m version => { m with version }⟩,
   ⟨false, "requests", (Message.follows_readRecord "Request").list, fun m requests =>
     { m with requests }⟩,
   ⟨false, "notifications", (Message.follows_readRecord "Notification").list,
     fun m notifications => { m with notifications }⟩,
   ⟨false, "structures", Structure.follows_read.list, fun m structures => { m with structures }⟩,
   ⟨false, "enumerations", Enumeration.follows_read.list, fun m enumerations =>
     { m with enumerations }⟩,
   ⟨false, "typeAliases", TypeAlias.follows_read.list, fun m aliases => { m with aliases }⟩]

def decode : Nat → Decoder Model :=
  opened fun depth =>
    decodeRecord "struct MetaModel" (slots.map (Slot.value depth)) { version := "" }

/-- A metamodel is read from a text as it is decoded from the document that the text spells. -/
theorem follows_read : Follows read decode :=
  .record _ _ slots _

end Model

end ProtocolCodec
