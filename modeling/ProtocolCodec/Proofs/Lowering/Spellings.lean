import ProtocolCodec.Proofs.Lowering.Dependence

/-!
# Two spellings of one type name

Schema names such as `_Foo`, `foo` and `Foo` have one type name, so that references to them have one
target type. Catalogs go by the schema name: what a reference is encoded by and what it holds by
value are looked up under its own spelling. The two levels agree as far as the spellings are
declared alike.
-/

namespace ProtocolCodec.Context

open Relation

/-- The alias that a reference to a name is looked through to. -/
def through? (context : Context) (name : String) : Option TypeAlias :=
  context.throughWith? context.catalog.aliases name

/-- Looking through a reference to the first name gives a type made of a reference to the second. -/
def LooksThrough (context : Context) (name next : String) : Prop :=
  ∃ a, context.through? name = some a ∧ a.type.elementName? = some next

/-- Looking through aliases, a type comes to a reference to the name. -/
def ComesTo (context : Context) (type : TypeExpr) (name : String) : Prop :=
  ∃ start, type.elementName? = some start ∧ ReflTransGen context.LooksThrough start name

/-- References to two names are looked through alike: neither is, or both are to one type, which
comes back to neither name. -/
def LookedThroughAlike (context : Context) (first second : String) : Prop :=
  (context.through? first = none ∧ context.through? second = none) ∨
    ∃ a b, context.through? first = some a ∧ context.through? second = some b ∧ a.type = b.type ∧
      ¬ context.ComesTo a.type first ∧ ¬ context.ComesTo a.type second

/-- A structure is of the type name or has one of that type name inside it. -/
def Encloses (context : Context) (s : Structure) (typeName : String) : Prop :=
  ∃ t, ReflTransGen context.Contains s t ∧ Naming.typeName t.name = typeName

/-- References to two names hold alike by value: neither holds a structure, or both hold structures
that enclose the same type names. -/
def HeldAlike (context : Context) (first second : String) : Prop :=
  (context.byValue? (.reference first) = none ∧ context.byValue? (.reference second) = none) ∨
    ∃ s t, context.byValue? (.reference first) = some s ∧
      context.byValue? (.reference second) = some t ∧
      ∀ typeName, context.Encloses s typeName ↔ context.Encloses t typeName

variable {context : Context} {first second : String}

/-- Where no way leads back to either name, it does not matter which of the two aliases has been
taken away. -/
theorem shapeWith_removeName_eq {type : TypeExpr} (hfirst : ¬ context.ComesTo type first)
    (hsecond : ¬ context.ComesTo type second) :
    context.shapeWith (removeName TypeAlias.name context.catalog.aliases first) type =
      context.shapeWith (removeName TypeAlias.name context.catalog.aliases second) type := by
  have hne : ∀ name, context.ComesTo type name → name ≠ first ∧ name ≠ second := by
    intro name hname
    constructor
    · rintro rfl
      exact hfirst hname
    · rintro rfl
      exact hsecond hname
  apply shapeWith_congr {name | context.ComesTo type name}
  · intro name _
    rfl
  · intro name hname
    rw [throughWith?_removeName, throughWith?_removeName, if_neg (hne name hname).1,
      if_neg (hne name hname).2]
  · intro name hname a ha next hnext
    rw [throughWith?_removeName, if_neg (hne name hname).1] at ha
    obtain ⟨start, hstart, hpath⟩ := hname
    exact ⟨start, hstart, hpath.tail ⟨a, ha, hnext⟩⟩
  · intro name hname
    exact ⟨name, hname, ReflTransGen.refl⟩

/-- References to names that are looked through alike have one shape. -/
theorem LookedThroughAlike.shape_eq (h : context.LookedThroughAlike first second)
    (hfirst : context.settings.isStringAlias first = false)
    (hsecond : context.settings.isStringAlias second = false)
    (hname : Naming.typeName first = Naming.typeName second) :
    context.shape (.reference first) = context.shape (.reference second) := by
  rw [shape, shape, shapeWith_through, shapeWith_through, hfirst, hsecond, hname]
  rcases h with ⟨hnone, hother⟩ | ⟨a, b, ha, hb, htype, hback, hagain⟩
  · rw [through?] at hnone hother
    rw [hnone, hother]
    rfl
  · rw [through?] at ha hb
    rw [ha, hb, Option.elim_some, Option.elim_some, ← htype, shapeWith_removeName_eq hback hagain]

/-- A structure with the type name and the parts of another encloses what that one does. -/
theorem Encloses.of_parts {s t : Structure} {typeName : String} (h : context.Encloses s typeName)
    (hname : Naming.typeName s.name = Naming.typeName t.name)
    (hparts : ∀ part, context.Contains s part → context.Contains t part) :
    context.Encloses t typeName := by
  obtain ⟨u, hpath, hu⟩ := h
  rcases ReflTransGen.cases_head hpath with rfl | ⟨part, hpart, hrest⟩
  · exact ⟨t, ReflTransGen.refl, hname ▸ hu⟩
  · exact ⟨u, ReflTransGen.head (hparts part hpart) hrest, hu⟩

/-- The owners for which a reference needs a box tell apart what it holds. -/
theorem heldAlike_iff {model : Model} {settings : Settings} :
    (ofModel model settings).HeldAlike first second ↔
      ∀ owner, (ofModel model settings).needsBox owner (.reference first) =
        (ofModel model settings).needsBox owner (.reference second) := by
  have hbox : ∀ name owner,
      (ofModel model settings).needsBox owner (.reference name) = true ↔
        ∃ s, (ofModel model settings).byValue? (.reference name) = some s ∧
          (ofModel model settings).Encloses s owner :=
    fun name owner => needsBox_iff model settings owner (.reference name)
  constructor
  · intro h owner
    rw [Bool.eq_iff_iff, hbox, hbox]
    rcases h with ⟨hnone, hother⟩ | ⟨s, t, hs, ht, hsame⟩
    · rw [hnone, hother]
    · simp [hs, ht, hsame owner]
  · intro h
    have hsame : ∀ owner, (∃ s, (ofModel model settings).byValue? (.reference first) = some s ∧
        (ofModel model settings).Encloses s owner) ↔
        ∃ t, (ofModel model settings).byValue? (.reference second) = some t ∧
          (ofModel model settings).Encloses t owner := by
      intro owner
      rw [← hbox, ← hbox, h owner]
    -- a structure held on one side only would be found by its own type name
    cases hfirst : (ofModel model settings).byValue? (.reference first) with
    | none =>
        cases hsecond : (ofModel model settings).byValue? (.reference second) with
        | none => exact Or.inl ⟨hfirst, hsecond⟩
        | some t =>
            obtain ⟨s, hs, -⟩ := (hsame _).mpr ⟨t, hsecond, t, ReflTransGen.refl, rfl⟩
            rw [hfirst] at hs
            cases hs
    | some s =>
        cases hsecond : (ofModel model settings).byValue? (.reference second) with
        | none =>
            obtain ⟨t, ht, -⟩ := (hsame _).mp ⟨s, hfirst, s, ReflTransGen.refl, rfl⟩
            rw [hsecond] at ht
            cases ht
        | some t =>
            refine Or.inr ⟨s, t, hfirst, hsecond, ?_⟩
            intro typeName
            simpa [hfirst, hsecond] using hsame typeName

/-- Let two names that are no string aliases have one type name. References to them have the same
target type; they have the same shape if they are looked through alike, and need a box for the same
owners just when they hold alike by value. -/
theorem lowering_eq_of_typeName_eq (model : Model) (settings : Settings) (first second : String)
    (hfirst : settings.isStringAlias first = false)
    (hsecond : settings.isStringAlias second = false)
    (hname : Naming.typeName first = Naming.typeName second) :
    (ofModel model settings).resolve (.reference first) =
        (ofModel model settings).resolve (.reference second) ∧
      ((ofModel model settings).LookedThroughAlike first second →
        (ofModel model settings).shape (.reference first) =
          (ofModel model settings).shape (.reference second)) ∧
      ((ofModel model settings).HeldAlike first second ↔
        ∀ owner, (ofModel model settings).needsBox owner (.reference first) =
          (ofModel model settings).needsBox owner (.reference second)) := by
  refine ⟨?_, ?_, heldAlike_iff⟩
  · have hplain : (ofModel model settings).settings.isStringAlias first = false := hfirst
    have hother : (ofModel model settings).settings.isStringAlias second = false := hsecond
    simp [resolve, hplain, hother, hname]
  · intro halike
    exact halike.shape_eq hfirst hsecond hname

/-- A structure that holds a leaf. -/
def holder (name : String) : Structure where
  name := name
  properties := [{ name := "leaf", type := .reference "Leaf" }]

/-- A name for lists of leaves. -/
def leafList (name : String) : TypeAlias where
  name := name
  type := .array (.reference "Leaf")

/-- A structure and an alias, each declared in two spellings. -/
def declaredTwice : Model where
  version := "1"
  structures := [{ name := "Leaf" }, holder "holder", holder "_Holder"]
  aliases := [leafList "leaves", leafList "_Leaves"]

theorem lowering_eq_declaredTwice :
    (ofModel declaredTwice .empty).shape (.reference "leaves") =
        (ofModel declaredTwice .empty).shape (.reference "_Leaves") ∧
      ∀ owner, (ofModel declaredTwice .empty).needsBox owner (.reference "holder") =
        (ofModel declaredTwice .empty).needsBox owner (.reference "_Holder") := by
  constructor
  · refine (lowering_eq_of_typeName_eq declaredTwice .empty "leaves" "_Leaves" (by decide)
      (by decide) (by decide +kernel)).2.1 ?_
    have hleaf : (ofModel declaredTwice .empty).through? "Leaf" = none := by decide +kernel
    have hback : ∀ name, name ≠ "Leaf" →
        ¬ (ofModel declaredTwice .empty).ComesTo (.array (.reference "Leaf")) name := by
      rintro name hne ⟨start, hstart, hpath⟩
      cases hstart
      rcases ReflTransGen.cases_head hpath with heq | ⟨next, ⟨a, ha, -⟩, -⟩
      · exact hne heq.symm
      · rw [hleaf] at ha
        cases ha
    exact Or.inr ⟨leafList "leaves", leafList "_Leaves", rfl, rfl, rfl,
      hback "leaves" (by decide), hback "_Leaves" (by decide)⟩
  · refine (lowering_eq_of_typeName_eq declaredTwice .empty "holder" "_Holder" (by decide)
      (by decide) (by decide +kernel)).2.2.mp ?_
    have hflatten : (ofModel declaredTwice .empty).catalog.flatten (holder "holder") =
        (ofModel declaredTwice .empty).catalog.flatten (holder "_Holder") := by cbv
    have hparts : ∀ part, (ofModel declaredTwice .empty).Contains (holder "holder") part ↔
        (ofModel declaredTwice .empty).Contains (holder "_Holder") part := by
      intro part
      rw [Contains, Contains, hflatten]
    have hname : Naming.typeName "holder" = Naming.typeName "_Holder" := by decide +kernel
    refine Or.inr ⟨holder "holder", holder "_Holder", structureOfName?_eq _,
      structureOfName?_eq _, ?_⟩
    intro typeName
    exact ⟨fun h => h.of_parts hname fun part => (hparts part).mp,
      fun h => h.of_parts hname.symm fun part => (hparts part).mpr⟩

/-- A structure that refers to itself in another spelling, and an alias of a primitive. -/
def respelled : Model where
  version := "1"
  structures := [{ name := "Node", properties := [{ name := "next", type := .reference "node" }] }]
  aliases := [{ name := "Count", type := .base "integer" }]

/-- Spellings that are not declared alike drift apart, in the codec and in the boxes. -/
theorem lowering_ne_respelled :
    (Settings.empty.isStringAlias "Count" = false ∧ Settings.empty.isStringAlias "count" = false ∧
      Naming.typeName "Count" = Naming.typeName "count" ∧
      (ofModel respelled .empty).shape (.reference "Count") ≠
        (ofModel respelled .empty).shape (.reference "count")) ∧
    Settings.empty.isStringAlias "Node" = false ∧ Settings.empty.isStringAlias "node" = false ∧
      Naming.typeName "Node" = Naming.typeName "node" ∧
      (ofModel respelled .empty).needsBox "Node" (.reference "Node") ≠
        (ofModel respelled .empty).needsBox "Node" (.reference "node") := by
  have hdeclared : (ofModel respelled .empty).shape (.reference "Count") = .base .integer := by
    rw [shape, shapeWith_through]
    exact shapeWith_of_plain nofun nofun
  have hunknown : (ofModel respelled .empty).shape (.reference "count") = .entity "Count" := by
    rw [shape, shapeWith_through]
    decide +kernel
  have hboxed : (ofModel respelled .empty).needsBox "Node" (.reference "Node") = true := by
    rw [needsBox_iff]
    exact ⟨_, structureOfName?_eq _, _, ReflTransGen.refl, by decide +kernel⟩
  have hplain : (ofModel respelled .empty).needsBox "Node" (.reference "node") = false := by
    have hnone : (ofModel respelled .empty).byValue? (.reference "node") = none :=
      structureOfName?_eq _
    rw [needsBox, hnone]
  rw [hdeclared, hunknown, hboxed, hplain]
  decide +kernel

end ProtocolCodec.Context
