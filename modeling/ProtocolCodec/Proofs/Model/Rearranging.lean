import ProtocolCodec.Proofs.Json.MemberOrder
import ProtocolCodec.Model.TypeReader

/-!
# Rearranged documents

What a document holds is known by its form: lists, records with named fields, types, and plain
values that have no fields. A document is rearranged when the members of its objects change places,
at any depth, and members are added to its records and types that no field has. Decoders are blind
to that.
-/

namespace ProtocolCodec

open Json

/-- What is expected at a place of a document. -/
inductive Form where
  | plain
  | list (item : Form)
  | record (fields : List (String × Form))
  | type

namespace Form

/-- A property of a literal type. -/
def literalProperty : Form :=
  .record [("name", .plain), ("type", .type), ("optional", .plain)]

/-- The fields that go with a tag. -/
def ofKind : TypeKind → List (String × Form)
  | .base => [("name", .plain)]
  | .reference => [("name", .plain)]
  | .array => [("element", .type)]
  | .map => [("key", .type), ("value", .type)]
  | .union => [("items", .list .type)]
  | .intersection => [("items", .list .type)]
  | .literal => [("value", .record [("properties", .list literalProperty)])]
  | .stringLiteral => [("value", .plain)]
  | .integerLiteral => [("value", .plain)]
  | .booleanLiteral => [("value", .plain)]
  | .tuple => [("items", .list .type)]

/-- A request or a notification. -/
def message : Form :=
  .record [("method", .plain), ("messageDirection", .plain), ("documentation", .plain)]

def property : Form :=
  .record [("name", .plain), ("type", .type), ("optional", .plain), ("documentation", .plain)]

def structureDeclaration : Form :=
  .record [("name", .plain), ("properties", .list property), ("extends", .list .type),
    ("mixins", .list .type), ("documentation", .plain)]

def enumMember : Form :=
  .record [("name", .plain), ("value", .plain), ("documentation", .plain)]

def enumeration : Form :=
  .record [("name", .plain), ("type", .type), ("values", .list enumMember),
    ("supportsCustomValues", .plain), ("documentation", .plain)]

def typeAlias : Form :=
  .record [("name", .plain), ("type", .type), ("documentation", .plain)]

def model : Form :=
  .record [("metaData", .record [("version", .plain)]), ("requests", .list message),
    ("notifications", .list message), ("structures", .list structureDeclaration),
    ("enumerations", .list enumeration), ("typeAliases", .list typeAlias)]

/-- The fields of a document, where it is a record or a type. Those of a type go by its tag. -/
def fields? (document : Json) : Form → Option (List (String × Form))
  | .record fields => some fields
  | .type =>
      match TypeExpr.split document with
      | .ok (kind, _) => some (("kind", .plain) :: ofKind kind)
      | .error _ => none
  | _ => none

/-- The form of an item of an array. -/
def item (document : Json) (index : Nat) : Form → Form
  | .list item => item
  | form => (((form.fields? document).getD [])[index]?.map Prod.snd).getD .plain

/-- The form of a member of an object. -/
def member (document : Json) (key : String) (form : Form) : Form :=
  (((form.fields? document).getD []).lookup key).getD .plain

/-- A key that a record or a type does not have. -/
def Unknown (document : Json) (key : String) (form : Form) : Prop :=
  ∃ fields, form.fields? document = some fields ∧ key ∉ fields.map Prod.fst

end Form

/-- An entry of an object: its key, its value, and what its value becomes. -/
structure Entry where
  key : String
  before : Json
  after : Json

namespace Entry

def old (entry : Entry) : String × Json :=
  (entry.key, entry.before)

def new (entry : Entry) : String × Json :=
  (entry.key, entry.after)

end Entry

/-- A document and one that it is rearranged to. Members change places, and members are added with
keys that are unknown and values that fit into the depth. -/
inductive Rearranges : (depth : Nat) → Form → Json → Json → Prop
  | same (depth : Nat) (form : Form) (document : Json) : Rearranges depth form document document
  | array {depth : Nat} {form : Form} (items : List (Json × Json))
      (hitems : ∀ index before after, items[index]? = some (before, after) →
        Rearranges (depth - 1) (form.item (.array (items.map Prod.fst)) index) before after) :
      Rearranges depth form (.array (items.map Prod.fst)) (.array (items.map Prod.snd))
  | object {depth : Nat} {form : Form} (entries : List Entry) (added : Members) {others : Members}
      (hentries : ∀ entry ∈ entries, Rearranges (depth - 1)
        (form.member (.object (entries.map Entry.old)) entry.key) entry.before entry.after)
      (hadded : ∀ member ∈ added,
        member.2.height < depth ∧ form.Unknown (.object (entries.map Entry.old)) member.1)
      (hperm : (entries.map Entry.new ++ added).Perm others) :
      Rearranges depth form (.object (entries.map Entry.old)) (.object others)

section Heights

theorem heightItems_le_iff {items : List Json} {bound : Nat} :
    heightItems items ≤ bound ↔ ∀ item ∈ items, item.height ≤ bound := by
  induction items with
  | nil => simp [heightItems]
  | cons item items ih => rw [heightItems, Nat.max_le, ih, List.forall_mem_cons]

theorem heightMembers_le_iff {members : Members} {bound : Nat} :
    heightMembers members ≤ bound ↔ ∀ member ∈ members, member.2.height ≤ bound := by
  induction members with
  | nil => simp [heightMembers]
  | cons member members ih => rw [heightMembers, Nat.max_le, ih, List.forall_mem_cons]

/-- A rearranged document stays within the depth. -/
theorem Rearranges.height_le {depth : Nat} {form : Form} {before after : Json}
    (h : Rearranges depth form before after) (hbefore : before.height ≤ depth) :
    after.height ≤ depth := by
  induction h with
  | same => exact hbefore
  | @array depth form items hitems ih =>
      obtain ⟨depth, rfl⟩ := Nat.exists_eq_add_one.mpr (Nat.lt_of_lt_of_le (Nat.succ_pos _) hbefore)
      simp only [height, Nat.add_le_add_iff_right, heightItems_le_iff, List.forall_mem_map]
        at hbefore ⊢
      intro pair hpair
      obtain ⟨index, hindex⟩ := List.mem_iff_getElem?.mp hpair
      exact ih index pair.1 pair.2 hindex (hbefore pair hpair)
  | @object depth form entries added others hentries hadded hperm ih =>
      obtain ⟨depth, rfl⟩ := Nat.exists_eq_add_one.mpr (Nat.lt_of_lt_of_le (Nat.succ_pos _) hbefore)
      simp only [height, Nat.add_le_add_iff_right, heightMembers_le_iff, List.forall_mem_map]
        at hbefore ⊢
      intro member hmember
      rcases List.mem_append.mp (hperm.mem_iff.mpr hmember) with hkept | hmember
      · obtain ⟨entry, hentry, rfl⟩ := List.mem_map.mp hkept
        exact ih entry hentry (hbefore entry hentry)
      · exact Nat.le_of_lt_succ (hadded member hmember).1

end Heights

/-! ## Blind decoders -/

section Blindness

variable {α β : Type} {depth : Nat} {form : Form} {decode : Decoder α}

/-- A decoder that gives the same for documents and what they are rearranged to. -/
def Blind (depth : Nat) (form : Form) (decode : Decoder α) : Prop :=
  ∀ before after a, Rearranges depth form before after → decode before = .ok a →
    decode after = .ok a

/-- A decoder of scalars is blind, since scalars cannot be rearranged. -/
theorem blind_of_scalar (harray : ∀ items a, decode (.array items) ≠ .ok a)
    (hobject : ∀ members a, decode (.object members) ≠ .ok a) : Blind depth form decode := by
  intro before after a hchange hdecode
  cases hchange with
  | same => exact hdecode
  | array => exact absurd hdecode (harray _ a)
  | object => exact absurd hdecode (hobject _ a)

theorem blind_decodeText : Blind depth form decodeText :=
  blind_of_scalar nofun nofun

theorem blind_decodeFlag : Blind depth form decodeFlag :=
  blind_of_scalar nofun nofun

theorem Blind.bind (h : Blind depth form decode) (next : α → Except Cause β) :
    Blind depth form fun value => decode value >>= next := by
  intro before after b hchange hboth
  obtain ⟨a, hdecode, hnext⟩ := exists_of_bind_eq_ok hboth
  change decode after >>= next = .ok b
  rw [h before after a hchange hdecode]
  exact hnext

theorem Blind.map (h : Blind depth form decode) (f : α → β) :
    Blind depth form fun value => f <$> decode value := by
  intro before after b hchange hmap
  obtain ⟨a, hdecode, rfl⟩ := exists_of_map_eq_ok hmap
  change f <$> decode after = .ok (f a)
  rw [h before after a hchange hdecode]
  rfl

/-! ### Lists -/

theorem mapM_snd_of_mapM_fst {items : List (Json × Json)} {as : List α}
    (hitems : ∀ pair ∈ items, ∀ a, decode pair.1 = .ok a → decode pair.2 = .ok a)
    (h : (items.map Prod.fst).mapM decode = .ok as) :
    (items.map Prod.snd).mapM decode = .ok as := by
  induction items generalizing as with
  | nil => exact h
  | cons pair items ih =>
      obtain ⟨hpair, hitems⟩ := List.forall_mem_cons.mp hitems
      rw [List.map_cons, List.mapM_cons] at h ⊢
      obtain ⟨a, hdecode, h⟩ := exists_of_bind_eq_ok h
      obtain ⟨rest, hrest, h⟩ := exists_of_bind_eq_ok h
      rw [hpair a hdecode, ih hitems hrest]
      exact h

/-- A list is decoded alike when its items are. -/
theorem Blind.list (h : Blind (depth - 1) form decode) :
    Blind depth (.list form) (decodeList decode) := by
  intro before after as hchange hdecode
  cases hchange with
  | same => exact hdecode
  | object => cases hdecode
  | array items hitems =>
      refine mapM_snd_of_mapM_fst ?_ hdecode
      intro pair hpair a hfirst
      obtain ⟨index, hindex⟩ := List.mem_iff_getElem?.mp hpair
      exact h pair.1 pair.2 a (hitems index pair.1 pair.2 hindex) hfirst

/-! ### Records -/

/-- A field that is stored alike from rearranged values. -/
structure FieldBlind (depth : Nat) (field : ValueField α) (entry : String × Form) : Prop where
  key : field.key = entry.1
  store : ∀ a, Blind depth entry.2 (field.store a)

/-- A field is blind when its decoder is. -/
theorem fieldBlind_valueField {required : Bool} {key : String} {decode : Decoder β}
    {put : α → β → α} (h : Blind depth form decode) :
    FieldBlind depth (valueField required key decode put) (key, form) :=
  ⟨rfl, fun _ => h.bind _⟩

section Fields

variable {fields : List (ValueField α)} {forms : List (String × Form)}

theorem find?_of_fieldBlind (hfields : List.Forall₂ (FieldBlind depth) fields forms) {key : String}
    {field : ValueField α} (h : fields.find? (·.key == key) = some field) :
    ∃ form, forms.lookup key = some form ∧ ∀ a, Blind depth form (field.store a) := by
  induction hfields with
  | nil => cases h
  | @cons first entry fields forms hfirst _ ih =>
      obtain ⟨name, form⟩ := entry
      obtain ⟨rfl, hstore⟩ := hfirst
      rw [List.find?_cons] at h
      rw [List.lookup_cons]
      by_cases hkey : first.key = key
      · subst hkey
        simp only [BEq.rfl] at h ⊢
        cases h
        exact ⟨form, rfl, hstore⟩
      · have hbeq : (first.key == key) = false := beq_false_of_ne hkey
        have hbeq' : (key == first.key) = false := beq_false_of_ne (Ne.symm hkey)
        simp only [hbeq, hbeq'] at h ⊢
        exact ih h

theorem find?_of_unknown (hfields : List.Forall₂ (FieldBlind depth) fields forms) {key : String}
    (h : key ∉ forms.map Prod.fst) : fields.find? (·.key == key) = none := by
  have hkeys : fields.map (·.key) = forms.map Prod.fst := by
    induction hfields with
    | nil => rfl
    | cons hfield _ ih =>
        rw [List.map_cons, List.map_cons, hfield.key,
          ih fun hmem => h (List.mem_cons_of_mem _ hmem)]
  rw [← hkeys] at h
  rw [List.find?_eq_none]
  intro field hfield hkey
  exact h (List.mem_map.mpr ⟨field, hfield, beq_iff_eq.mp hkey⟩)

/-- Fields that are blind are decoded alike from items in turn. -/
theorem decodePositions_blind (hfields : List.Forall₂ (FieldBlind depth) fields forms)
    {label : String} {all : List (ValueField α)} {index : Nat} {a b : α}
    {items : List (Json × Json)}
    (hitems : ∀ (index : Nat) before after, items[index]? = some (before, after) →
      Rearranges depth ((forms[index]?.map Prod.snd).getD .plain) before after)
    (h : decodePositions label all fields index a (items.map Prod.fst) = .ok (b, [])) :
    decodePositions label all fields index a (items.map Prod.snd) = .ok (b, []) := by
  induction hfields generalizing index a items with
  | nil =>
      cases items with
      | nil => exact h
      | cons pair items => cases h
  | @cons field entry fields forms hfield _ ih =>
      cases items with
      | nil => exact h
      | cons pair items =>
          rw [List.map_cons, decodePositions] at h ⊢
          cases hstore : field.store a pair.1 with
          | error cause =>
              rw [hstore] at h
              cases h
          | ok c =>
              rw [hstore] at h
              rw [hfield.store a pair.1 pair.2 c (hitems 0 pair.1 pair.2 rfl) hstore]
              exact ih (fun index before after hindex => hitems (index + 1) before after hindex) h

/-- Fields that are blind are decoded alike from members in turn. -/
theorem decodeMembers_blind (hfields : List.Forall₂ (FieldBlind depth) fields forms)
    {seen : List String} {a : α} {result : List String × α} {entries : List Entry}
    (hentries : ∀ entry ∈ entries,
      Rearranges depth ((forms.lookup entry.key).getD .plain) entry.before entry.after)
    (h : decodeMembers fields seen a (entries.map Entry.old) = .ok result) :
    decodeMembers fields seen a (entries.map Entry.new) = .ok result := by
  induction entries generalizing seen a with
  | nil => exact h
  | cons entry entries ih =>
      obtain ⟨hentry, hentries⟩ := List.forall_mem_cons.mp hentries
      rw [List.map_cons, Entry.old] at h
      rw [List.map_cons, Entry.new]
      rcases decodeMembers_cases h with ⟨hnone, h⟩ | ⟨field, c, hsome, hkey, hstore, h⟩
      · rw [decodeMembers_pass hnone]
        exact ih hentries h
      · obtain ⟨form, hlookup, hblind⟩ := find?_of_fieldBlind hfields hsome
        rw [hlookup] at hentry
        rw [decodeMembers_store hsome hkey (hblind a entry.before entry.after c hentry hstore)]
        exact ih hentries h

/-- A record of independent fields is decoded alike when it is rearranged. -/
theorem blind_decodeRecord {label : String} {blank : α}
    (hfields : List.Forall₂ (FieldBlind (depth - 1)) fields forms)
    (hcommute : fields.Pairwise Commutes) :
    Blind depth (.record forms) (decodeRecord label fields blank) := by
  intro before after a hchange hdecode
  cases hchange with
  | same => exact hdecode
  | array items hitems =>
      rw [decodeRecord, decodeItems] at hdecode ⊢
      obtain ⟨⟨b, surplus⟩, hpositions, hrest⟩ := exists_of_bind_eq_ok hdecode
      -- Nothing may be left over, so both sides end with the items.
      cases surplus with
      | nil =>
          rw [decodePositions_blind hfields hitems hpositions]
          exact hrest
      | cons item surplus => cases hrest
  | object entries added hentries hadded hperm =>
      have hunknown : ∀ member ∈ added, fields.find? (·.key == member.1) = none := by
        intro member hmember
        obtain ⟨_, forms, hforms, hkey⟩ := hadded member hmember
        cases hforms
        exact find?_of_unknown hfields hkey
      refine decodeRecord_object_perm hcommute hunknown hperm ?_
      rw [decodeRecord] at hdecode ⊢
      obtain ⟨⟨seen, b⟩, hmembers, hrest⟩ := exists_of_bind_eq_ok hdecode
      rw [decodeMembers_blind hfields hentries hmembers]
      exact hrest

end Fields

end Blindness

end ProtocolCodec
