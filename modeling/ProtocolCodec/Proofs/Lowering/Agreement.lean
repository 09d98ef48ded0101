import Mathlib.Data.Set.Function
import Mathlib.Logic.Relation
import ProtocolCodec.Proofs.Emission

/-!
# Declared types and codecs agree

The target type of a field names an alias where the codec shape looks through it. Writing out the
aliases that a run has emitted, as often as there are any, gives the tree that the shape is. Target
types go by type names and emitted blocks, shapes by schema names and the catalog; what joins them
is that distinct schema names have distinct type names.
-/

namespace ProtocolCodec

/-! ## The names of a metamodel -/

mutual

/-- Every name a type refers to, at any depth. -/
def TypeExpr.references : TypeExpr → List String
  | .reference name => [name]
  | .array element => element.references
  | .map key value => key.references ++ value.references
  | .union items => TypeExpr.listReferences items
  | .intersection items => TypeExpr.listReferences items
  | .literal properties => LiteralProperty.listReferences properties
  | .tuple items => TypeExpr.listReferences items
  | _ => []

/-- Every name a list of types refers to. -/
def TypeExpr.listReferences : List TypeExpr → List String
  | [] => []
  | type :: rest => type.references ++ TypeExpr.listReferences rest

/-- Every name the properties of a literal type refer to. -/
def LiteralProperty.listReferences : List LiteralProperty → List String
  | [] => []
  | .mk _ type _ :: rest => type.references ++ LiteralProperty.listReferences rest

end

namespace Model

/-- Every type written anywhere in a metamodel. -/
def types (model : Model) : List TypeExpr :=
  model.structures.flatMap (fun s => s.properties.map Property.type ++ s.extended ++ s.mixins) ++
    model.enumerations.map Enumeration.type ++ model.aliases.map TypeAlias.type

/-- Every name a metamodel declares or refers to. -/
def names (model : Model) : List String :=
  model.declarations.map Declaration.name ++ model.types.flatMap TypeExpr.references

end Model

/-! ## Writing out emitted aliases -/

/-- The alias declared in a block. -/
def Block.synonym? : Block → Option SynonymPlan
  | .entity (.synonym plan) => some plan
  | _ => none

namespace Run

/-- The aliases a run has emitted, in order. -/
def synonyms (run : Run) : List SynonymPlan :=
  run.blocks.filterMap Block.synonym?

/-- The right-hand side of the alias a run has emitted under a name. -/
def synonym? (run : Run) (name : String) : Option Target :=
  (findName? SynonymPlan.name run.synonyms name).map SynonymPlan.target

/-- Replacing the names of emitted aliases in a type by their right-hand sides, and going on inside
those, comes to an end with the second type. -/
inductive Expands (run : Run) : Target → Target → Prop where
  | base (kind : BaseKind) : Expands run (.base kind) (.base kind)
  | json : Expands run .json .json
  | synonym {name : String} {target result : Target} (hname : run.synonym? name = some target)
      (htarget : Expands run target result) : Expands run (.named name) result
  | other {name : String} (hname : run.synonym? name = none) :
      Expands run (.named name) (.named name)
  | sequence {item result : Target} (hitem : Expands run item result) :
      Expands run (.sequence item) (.sequence result)
  | boxed {inner result : Target} (hinner : Expands run inner result) :
      Expands run (.boxed inner) (.boxed result)
  | optional {inner result : Target} (hinner : Expands run inner result) :
      Expands run (.optional inner) (.optional result)

/-- What has to be written out next, to write out a type. -/
def next? (run : Run) : Target → Option Target
  | .named name => run.synonym? name
  | .sequence item => some item
  | .boxed inner => some inner
  | .optional inner => some inner
  | _ => none

/-- The second type has to be written out in order to write out the first. -/
def LeadsTo (run : Run) : Target → Target → Prop :=
  Relation.TransGen fun first second => run.next? first = some second

/-- What follows a target on a cycle is on a cycle as well. -/
theorem LeadsTo.shift {run : Run} {first second : Target} (hnext : run.next? first = some second)
    (hcycle : run.LeadsTo first first) : run.LeadsTo second second := by
  obtain ⟨middle, hmiddle, hrest⟩ := Relation.TransGen.head'_iff.mp hcycle
  rw [hnext, Option.some.injEq] at hmiddle
  subst middle
  exact Relation.TransGen.tail' hrest hnext

/-- A type that leads back to itself cannot be written out. -/
theorem Expands.not_leadsTo_self {run : Run} {target result : Target}
    (h : Expands run target result) : ¬ run.LeadsTo target target := by
  induction h with
  | base kind =>
      intro hcycle
      obtain ⟨_, hnext, _⟩ := Relation.TransGen.head'_iff.mp hcycle
      simp [next?] at hnext
  | json =>
      intro hcycle
      obtain ⟨_, hnext, _⟩ := Relation.TransGen.head'_iff.mp hcycle
      simp [next?] at hnext
  | @synonym name target _ hname _ ih =>
      have hnext : run.next? (.named name) = some target := hname
      exact fun hcycle => ih (hcycle.shift hnext)
  | other hname =>
      intro hcycle
      obtain ⟨_, hnext, _⟩ := Relation.TransGen.head'_iff.mp hcycle
      simp [next?, hname] at hnext
  | sequence _ ih => exact fun hcycle => ih (hcycle.shift rfl)
  | boxed _ ih => exact fun hcycle => ih (hcycle.shift rfl)
  | optional _ ih => exact fun hcycle => ih (hcycle.shift rfl)

end Run

/-! ## What a run has emitted under a name -/

/-- The alias of a declaration that is one. -/
def Declaration.alias? : Declaration → Option TypeAlias
  | .synonym a => some a
  | _ => none

section

variable (model : Model) (settings : Settings)

/-- The aliases in the output of a metamodel are those of its admitted declarations. -/
theorem synonyms_emit :
    (Run.emit { settings } model).synonyms =
      (({ settings } : Run).admitted model.declarations).filterMap fun d =>
        d.alias?.map fun a =>
          (Context.ofModel model settings).planSynonym (Naming.typeName a.name) a := by
  rw [Run.synonyms, Run.blocks_emit, List.filterMap_append, List.filterMap_cons]
  simp only [Block.synonym?, List.filterMap_map, List.filterMap_nil, List.nil_append]
  congr 1
  funext declaration
  cases declaration <;> rfl

/-- A fresh run has an alias under a type name when the name is not excluded and the first
declaration with that type name is an alias. -/
theorem synonym?_emit (typeName : String) :
    (Run.emit { settings } model).synonym? typeName =
      if settings.isExcluded typeName then none
      else
        ((findName? Declaration.typeName model.declarations typeName).bind
          Declaration.alias?).map fun a => (Context.ofModel model settings).resolve a.type := by
  have hname : ∀ (d : Declaration) (plan : SynonymPlan),
      (d.alias?.map fun a => (Context.ofModel model settings).planSynonym
        (Naming.typeName a.name) a) = some plan → plan.name = d.typeName := by
    intro d plan hplan
    cases d with
    | enumeration e => simp [Declaration.alias?] at hplan
    | record s => simp [Declaration.alias?] at hplan
    | synonym a =>
        simp only [Declaration.alias?, Option.map_some, Option.some.injEq] at hplan
        subst plan
        rfl
  rw [Run.synonym?, synonyms_emit, findName?_filterMap hname (Run.nodup_admitted _ _),
    Run.findName?_admitted]
  cases settings.isExcluded typeName with
  | true => rfl
  | false =>
      simp only [Bool.false_eq_true, if_false]
      cases findName? Declaration.typeName model.declarations typeName with
      | none => rfl
      | some d => cases d <;> rfl

/-- Looking a name up among all declarations asks for an enumeration first, then for a structure,
then for an alias. -/
theorem findName?_declarations (name : String) :
    findName? Declaration.name model.declarations name =
      (((Catalog.ofModel model).enumeration? name).map .enumeration).or
        ((((Catalog.ofModel model).structure? name).map .record).or
          (((Catalog.ofModel model).alias? name).map .synonym)) := by
  simp only [Model.declarations, findName?_append, Option.or_assoc, Catalog.structure?_ofModel,
    Catalog.enumeration?_ofModel, Catalog.alias?_ofModel]
  simp only [findName?, List.find?_map]
  rfl

end

/-! ## Agreement -/

/-- The type whose values a shape encodes. -/
def Shape.target : Shape → Target
  | .base kind => .base kind
  | .entity name => .named name
  | .sequence item => .sequence item.target
  | .json => .json

namespace Context

/-- What a target type says about the schema type it comes from. -/
def ComesFrom (context : Context) (type : TypeExpr) : Target → Prop
  | .base kind => ∀ aliases, context.shapeWith aliases type = .base kind
  | .json => ∀ aliases, context.shapeWith aliases type = .json
  | .named typeName => ∃ name, type = .reference name ∧
      context.settings.isStringAlias name = false ∧ Naming.typeName name = typeName
  | .sequence item => ∃ element, type = .array element ∧ context.resolve element = item
  | _ => False

variable (context : Context) (aliases : List TypeAlias)

theorem comesFrom_resolve_of_plain {type : TypeExpr} (hreference : ∀ name, type ≠ .reference name)
    (harray : ∀ element, type ≠ .array element) :
    context.ComesFrom type (context.resolve type) := by
  rw [resolve]
  · cases hkind : BaseKind.of? type with
    | none =>
        intro aliases
        rw [shapeWith, hkind]
        · exact hreference
        · exact harray
    | some kind =>
        intro aliases
        rw [shapeWith, hkind]
        · exact hreference
        · exact harray
  · exact hreference
  · exact harray

/-- Every target type a schema type has comes from it. -/
theorem comesFrom_resolve (type : TypeExpr) : context.ComesFrom type (context.resolve type) := by
  cases type with
  | reference name =>
      rw [resolve]
      cases hstring : context.settings.isStringAlias name with
      | true =>
          intro aliases
          rw [shapeWith, hstring]
          rfl
      | false => exact ⟨name, rfl, hstring, rfl⟩
  | array element => exact ⟨element, rfl, rfl⟩
  | _ => exact context.comesFrom_resolve_of_plain nofun nofun

theorem shapeWith_array (element : TypeExpr) :
    context.shapeWith aliases (.array element) = .sequence (context.shapeWith aliases element) := by
  rw [shapeWith]

/-- A reference is looked through when it has no codec of its own and its alias may be used. -/
theorem shapeWith_reference (name : String) :
    context.shapeWith aliases (.reference name) =
      if context.settings.isStringAlias name then .base .string
      else if context.hasOwnCodec name then .entity (Naming.typeName name)
      else
        (findName? TypeAlias.name aliases name).elim (.entity (Naming.typeName name)) fun a =>
          context.shapeWith (removeName TypeAlias.name aliases name) a.type := by
  rw [shapeWith]
  congr 2
  split
  next hnone => rw [hnone, Option.elim_none]
  next a hsome =>
    simp only [hsome, Option.elim_some]
    split
    next items htype =>
      rw [htype, shapeWith]
      · rfl
      · intro other hother
        cases hother
      · intro element helement
        cases helement
    next => rfl

end Context

section

variable {model : Model} {settings : Settings} {known : Set String}

/-- Where type names tell the known names apart, an emitted alias is found under the type name of a
known name just when a reference to that name is looked through. -/
theorem synonym?_typeName (hinj : Set.InjOn Naming.typeName known)
    (hdeclared : ∀ d ∈ model.declarations, d.name ∈ known) {name : String} (hname : name ∈ known) :
    (Run.emit { settings } model).synonym? (Naming.typeName name) =
      if (Context.ofModel model settings).hasOwnCodec name then none
      else
        ((Catalog.ofModel model).alias? name).map fun a =>
          (Context.ofModel model settings).resolve a.type := by
  have hfind : findName? Declaration.typeName model.declarations (Naming.typeName name) =
      findName? Declaration.name model.declarations name := by
    apply List.find?_congr
    intro d hd
    rw [Bool.eq_iff_iff, beq_iff_eq, beq_iff_eq]
    exact hinj.eq_iff (hdeclared d hd) hname
  rw [synonym?_emit, hfind, findName?_declarations]
  unfold Context.hasOwnCodec
  -- an excluded name, an enumeration and a structure come before an alias on both sides
  change _ = if (settings.isExcluded (Naming.typeName name) ||
    ((Catalog.ofModel model).structure? name).isSome ||
    ((Catalog.ofModel model).enumeration? name).isSome) = true then none else _
  cases settings.isExcluded (Naming.typeName name) with
  | true => rfl
  | false =>
      cases (Catalog.ofModel model).enumeration? name with
      | some e => simp [Declaration.alias?]
      | none =>
          cases (Catalog.ofModel model).structure? name with
          | some s => simp [Declaration.alias?]
          | none =>
              cases (Catalog.ofModel model).alias? name with
              | none => rfl
              | some a => simp [Declaration.alias?]

/-- The induction follows how the target type is written out. Of the aliases, those already looked
through are missing; each of them leads to the type at hand, which therefore is not one of them. -/
theorem Run.Expands.eq_target (hinj : Set.InjOn Naming.typeName known)
    (hdeclared : ∀ d ∈ model.declarations, d.name ∈ known)
    (hmentioned : ∀ a ∈ model.aliases, ∀ name ∈ a.type.references, name ∈ known)
    {target result : Target} (h : Run.Expands (Run.emit { settings } model) target result) :
    ∀ (type : TypeExpr) (aliases : List TypeAlias),
      (Context.ofModel model settings).ComesFrom type target →
      (∀ name ∈ type.references, name ∈ known) →
      (∀ name ∈ known, findName? TypeAlias.name aliases name = (Catalog.ofModel model).alias? name ∨
        (Run.emit { settings } model).LeadsTo (.named (Naming.typeName name)) target) →
      result = ((Context.ofModel model settings).shapeWith aliases type).target := by
  induction h with
  | base kind =>
      intro type aliases hfrom _ _
      rw [hfrom aliases]
      rfl
  | json =>
      intro type aliases hfrom _ _
      rw [hfrom aliases]
      rfl
  | @synonym typeName target result hname htarget ih =>
      rintro _ aliases ⟨name, rfl, hstring, rfl⟩ hknown haliases
      have hmem : name ∈ known := hknown name List.mem_cons_self
      have hnext : (Run.emit { settings } model).next? (.named (Naming.typeName name)) =
          some target := hname
      -- had the alias been looked through before, it would lead back to itself
      have hfind := (haliases name hmem).resolve_right
        (Run.Expands.synonym hname htarget).not_leadsTo_self
      rw [synonym?_typeName hinj hdeclared hmem] at hname
      rw [Context.shapeWith_reference, hstring, hfind]
      split at hname
      next => cases hname
      next hcodec =>
        obtain ⟨a, halias, rfl⟩ := Option.map_eq_some_iff.mp hname
        rw [if_neg hcodec, halias, Option.elim_some]
        refine ih a.type _ (Context.comesFrom_resolve _ a.type) ?_ ?_
        · rw [Catalog.alias?_ofModel] at halias
          exact hmentioned a (mem_of_findName? halias)
        · -- the alias at hand is no longer there, but leads to the type that takes its place
          intro other hother
          by_cases heq : other = name
          · subst other
            exact Or.inr (Relation.TransGen.single hnext)
          · rw [findName?_removeName_of_ne heq]
            exact (haliases other hother).imp_right fun hleads => hleads.tail hnext
  | @other typeName hname =>
      rintro _ aliases ⟨name, rfl, hstring, rfl⟩ hknown haliases
      have hmem : name ∈ known := hknown name List.mem_cons_self
      have hfind := (haliases name hmem).resolve_right
        (Run.Expands.other hname).not_leadsTo_self
      rw [synonym?_typeName hinj hdeclared hmem] at hname
      rw [Context.shapeWith_reference, hstring, hfind]
      split at hname
      next hcodec =>
        rw [if_pos hcodec]
        rfl
      next hcodec =>
        rw [if_neg hcodec, Option.map_eq_none_iff.mp hname]
        rfl
  | @sequence item result hitem ih =>
      rintro _ aliases ⟨element, rfl, rfl⟩ hknown haliases
      rw [Context.shapeWith_array, Shape.target]
      congr 1
      refine ih element aliases (Context.comesFrom_resolve _ element) hknown ?_
      intro name hname
      exact (haliases name hname).imp_right fun hleads => hleads.tail rfl
  | boxed _ _ => exact fun _ _ hfrom => hfrom.elim
  | optional _ _ => exact fun _ _ hfrom => hfrom.elim

end

/-- The target type of a schema type and its shape agree. Suppose that no two names which a
metamodel declares or refers to, or which the type refers to, have the same type name, and that
writing out the emitted aliases in the target type comes to an end. Then it ends in the tree that is
the shape. Names may be declared twice, also by declarations of different kinds, may be excluded,
string aliases or not declared at all. -/
theorem expands_resolve_iff (model : Model) (settings : Settings) (type : TypeExpr)
    (hinj : Set.InjOn Naming.typeName {name | name ∈ model.names ∨ name ∈ type.references})
    (hfinite : ∃ result, Run.Expands (Run.emit { settings } model)
      ((Context.ofModel model settings).resolve type) result) (result : Target) :
    Run.Expands (Run.emit { settings } model) ((Context.ofModel model settings).resolve type)
      result ↔ result = ((Context.ofModel model settings).shape type).target := by
  have hdeclared : ∀ d ∈ model.declarations,
      d.name ∈ {name | name ∈ model.names ∨ name ∈ type.references} := by
    intro d hd
    exact Or.inl (List.mem_append_left _ (List.mem_map_of_mem hd))
  have hmentioned : ∀ a ∈ model.aliases, ∀ name ∈ a.type.references,
      name ∈ {name | name ∈ model.names ∨ name ∈ type.references} := by
    intro a ha name hname
    have htype : a.type ∈ model.types := List.mem_append_right _ (List.mem_map_of_mem ha)
    exact Or.inl (List.mem_append_right _ (List.mem_flatMap.mpr ⟨a.type, htype, hname⟩))
  have hshape : ∀ result, Run.Expands (Run.emit { settings } model)
      ((Context.ofModel model settings).resolve type) result →
      result = ((Context.ofModel model settings).shape type).target := by
    intro result hresult
    exact hresult.eq_target hinj hdeclared hmentioned type _ (Context.comesFrom_resolve _ type)
      (fun _ hname => Or.inr hname) (fun _ _ => Or.inl rfl)
  constructor
  · exact hshape result
  · rintro rfl
    obtain ⟨other, hother⟩ := hfinite
    exact hshape other hother ▸ hother

/-- A chain of two aliases, one of them declared twice, and an alias hidden by a structure. -/
def chainedAliases : Model where
  version := "1"
  structures := [{ name := "Thing" }]
  aliases :=
    [{ name := "things", type := .array (.reference "Either") },
     { name := "Either", type := .reference "Thing" },
     { name := "things", type := .base "string" },
     { name := "Thing", type := .base "null" }]

theorem expands_resolve_chainedAliases :
    Run.Expands (Run.emit { settings := .empty } chainedAliases)
        ((Context.ofModel chainedAliases .empty).resolve (.array (.reference "things")))
        (.sequence (.sequence (.named "Thing"))) ∧
      Target.sequence (.sequence (.named "Thing")) =
        ((Context.ofModel chainedAliases .empty).shape (.array (.reference "things"))).target := by
  have hinj : ∀ first ∈ chainedAliases.names ++ ["things"],
      ∀ second ∈ chainedAliases.names ++ ["things"],
      Naming.typeName first = Naming.typeName second → first = second := by
    decide +kernel
  have hthings : (Run.emit { settings := .empty } chainedAliases).synonym? "Things" =
      some (.sequence (.named "Either")) := by
    decide +kernel
  have heither : (Run.emit { settings := .empty } chainedAliases).synonym? "Either" =
      some (.named "Thing") := by
    decide +kernel
  have hthing : (Run.emit { settings := .empty } chainedAliases).synonym? "Thing" = none := by
    decide +kernel
  have hresolve : (Context.ofModel chainedAliases .empty).resolve (.array (.reference "things")) =
      .sequence (.named "Things") := by
    decide +kernel
  have hexpands : Run.Expands (Run.emit { settings := .empty } chainedAliases)
      ((Context.ofModel chainedAliases .empty).resolve (.array (.reference "things")))
      (.sequence (.sequence (.named "Thing"))) := by
    rw [hresolve]
    exact .sequence (.synonym hthings (.sequence (.synonym heither (.other hthing))))
  refine ⟨hexpands, ?_⟩
  refine (expands_resolve_iff chainedAliases .empty _ ?_ ⟨_, hexpands⟩ _).mp hexpands
  intro first hfirst second hsecond
  exact hinj first (List.mem_append.mpr hfirst) second (List.mem_append.mpr hsecond)

end ProtocolCodec
