import ProtocolCodec.Proofs.Lowering.Agreement
import ProtocolCodec.Proofs.Lowering.Boxing

/-!
# What lowering depends on

Two contexts that answer the same questions lower a type alike. A target type asks which names are
string aliases. A shape asks, of the names it comes to, which alias a reference is looked through
to. Containment by value asks where to stop, then for structures, and for aliases only where there
is no structure; a name at which one context stops earlier than the other only hides the structures
of that name. A plan asks for nothing else, so contexts that agree on all this write the same text.
-/

namespace ProtocolCodec

open Relation

/-- The name a type refers to once the arrays around it are taken off. -/
def TypeExpr.elementName? : TypeExpr → Option String
  | .reference name => some name
  | .array element => element.elementName?
  | _ => none

namespace Context

variable {context other : Context} {aliases others : List TypeAlias} {name : String}

/-! ## Target types -/

/-- Target types depend on the string aliases only. -/
theorem resolve_congr
    (hstring : ∀ name, context.settings.isStringAlias name = other.settings.isStringAlias name)
    (type : TypeExpr) : context.resolve type = other.resolve type := by
  fun_induction resolve context type with
  | case1 name h => simp [resolve, ← hstring, h]
  | case2 name h => simp [resolve, ← hstring, h]
  | case3 element ih => rw [resolve, ih]
  | case4 type hreference harray kind hkind => rw [resolve, hkind] <;> assumption
  | case5 type hreference harray hkind => rw [resolve, hkind] <;> assumption

/-! ## Shapes -/

/-- The alias that a reference to a name is looked through to, of those that may still be. -/
def throughWith? (context : Context) (aliases : List TypeAlias) (name : String) :
    Option TypeAlias :=
  if context.settings.isStringAlias name || context.hasOwnCodec name then none
  else findName? TypeAlias.name aliases name

theorem throughWith?_removeName (unwanted name : String) :
    context.throughWith? (removeName TypeAlias.name aliases unwanted) name =
      if name = unwanted then none else context.throughWith? aliases name := by
  simp only [throughWith?, findName?_removeName]
  split_ifs <;> rfl

/-- A reference has the shape of what it is looked through to, or is to a codec of its own. -/
theorem shapeWith_through (name : String) :
    context.shapeWith aliases (.reference name) =
      if context.settings.isStringAlias name then .base .string
      else
        (context.throughWith? aliases name).elim (.entity (Naming.typeName name)) fun a =>
          context.shapeWith (removeName TypeAlias.name aliases name) a.type := by
  rw [shapeWith_reference]
  split_ifs with hstring hcodec
  · rfl
  · simp [throughWith?, hcodec]
  · simp [throughWith?, hstring, hcodec]

theorem shapeWith_of_plain {type : TypeExpr} (hreference : ∀ name, type ≠ .reference name)
    (harray : ∀ element, type ≠ .array element) :
    context.shapeWith aliases type = (BaseKind.of? type).elim .json .base := by
  rw [shapeWith]
  · cases BaseKind.of? type <;> rfl
  · exact hreference
  · exact harray

theorem shapeWith_union (items : List TypeExpr) :
    context.shapeWith aliases (.union items) = .json :=
  shapeWith_of_plain nofun nofun

theorem shapeWith_reference_congr
    (hstring : context.settings.isStringAlias name = other.settings.isStringAlias name)
    (hthrough : context.throughWith? aliases name = other.throughWith? others name)
    (htarget : ∀ a, context.throughWith? aliases name = some a →
      context.shapeWith (removeName TypeAlias.name aliases name) a.type =
        other.shapeWith (removeName TypeAlias.name others name) a.type) :
    context.shapeWith aliases (.reference name) = other.shapeWith others (.reference name) := by
  rw [shapeWith_through, shapeWith_through, hstring, ← hthrough]
  congr 1
  cases h : context.throughWith? aliases name with
  | none => rfl
  | some a => exact htarget a h

/-- Shapes agree where the names they come to are looked through alike. The known names have to
include everything that the type and the aliases looked through come to. -/
theorem shapeWith_congr (known : Set String)
    (hstring : ∀ name ∈ known,
      context.settings.isStringAlias name = other.settings.isStringAlias name)
    (hthrough : ∀ name ∈ known, context.throughWith? aliases name = other.throughWith? others name)
    (hclosed : ∀ name ∈ known, ∀ a, context.throughWith? aliases name = some a →
      ∀ next, a.type.elementName? = some next → next ∈ known)
    {type : TypeExpr} (htype : ∀ name, type.elementName? = some name → name ∈ known) :
    context.shapeWith aliases type = other.shapeWith others type := by
  induction aliases, type using shapeWith.induct context generalizing others with
  | case1 aliases name hstringAlias =>
      have hname := htype name rfl
      apply shapeWith_reference_congr (hstring name hname) (hthrough name hname)
      simp [throughWith?, hstringAlias]
  | case2 aliases name hstringAlias hcodec =>
      have hname := htype name rfl
      apply shapeWith_reference_congr (hstring name hname) (hthrough name hname)
      simp [throughWith?, hcodec]
  | case3 aliases name hstringAlias hcodec hfind =>
      have hname := htype name rfl
      apply shapeWith_reference_congr (hstring name hname) (hthrough name hname)
      simp [throughWith?, hfind]
  | case4 aliases name hstringAlias hcodec a hfind items hunion =>
      have hname := htype name rfl
      apply shapeWith_reference_congr (hstring name hname) (hthrough name hname)
      intro b hb
      obtain rfl : a = b := by simpa [throughWith?, hstringAlias, hcodec, hfind] using hb
      rw [hunion, shapeWith_union, shapeWith_union]
  | case5 aliases name hstringAlias hcodec a hfind hunion hshort ih =>
      have hname := htype name rfl
      apply shapeWith_reference_congr (hstring name hname) (hthrough name hname)
      intro b hb
      obtain rfl : a = b := by simpa [throughWith?, hstringAlias, hcodec, hfind] using hb
      apply ih
      · -- the alias is taken from both lists
        intro wanted hwanted
        rw [throughWith?_removeName, throughWith?_removeName, hthrough wanted hwanted]
      · intro wanted hwanted b hb
        rw [throughWith?_removeName] at hb
        split at hb
        next => cases hb
        next => exact hclosed wanted hwanted b hb
      · exact hclosed name hname a hb
  | case6 aliases element ih => rw [shapeWith_array, shapeWith_array, ih hthrough hclosed htype]
  | case7 aliases type hreference harray kind hkind =>
      rw [shapeWith_of_plain hreference harray, shapeWith_of_plain hreference harray]
  | case8 aliases type hreference harray hkind =>
      rw [shapeWith_of_plain hreference harray, shapeWith_of_plain hreference harray]

/-- Shapes depend on the string aliases and on what is looked through. -/
theorem shape_congr
    (hstring : ∀ name, context.settings.isStringAlias name = other.settings.isStringAlias name)
    (hthrough : ∀ name, context.throughWith? context.catalog.aliases name =
      other.throughWith? other.catalog.aliases name) (type : TypeExpr) :
    context.shape type = other.shape type := by
  apply shapeWith_congr Set.univ
  · intro name _
    exact hstring name
  · intro name _
    exact hthrough name
  · simp
  · simp

/-! ## Containment by value -/

/-- Whether a name holds nothing by value, whatever it is declared as. -/
def stopsAt (context : Context) (name : String) : Bool :=
  context.settings.isStringAlias name || context.settings.isExcluded (Naming.typeName name)

/-- The structure of a name: nothing where the search stops, otherwise the structure of the name or
what the alias refers to. -/
theorem structureOfName?_eq (name : String) :
    context.structureOfName? aliases name =
      if context.stopsAt name then none
      else
        (context.catalog.structure? name).or ((findName? TypeAlias.name aliases name).bind fun a =>
          a.type.referenceName?.bind
            (context.structureOfName? (removeName TypeAlias.name aliases name))) := by
  rw [structureOfName?, stopsAt]
  congr 1
  split
  next s hs => rw [hs, Option.some_or]
  next hs =>
    rw [hs, Option.none_or]
    split
    next hnone => rw [hnone, Option.bind_none]
    next a ha =>
      simp only [ha, Option.bind_some]
      cases a.type.referenceName? <;> rfl

/-- A context that stops at more names, of which no alias has one, hides the structures of these
names and no others. -/
theorem structureOfName?_hide (hidden : String → Bool)
    (hstop : ∀ name, other.stopsAt name = (context.stopsAt name || hidden name))
    (hstructure : ∀ name, other.catalog.structure? name = context.catalog.structure? name)
    (halias : ∀ name, context.catalog.structure? name = none →
      findName? TypeAlias.name others name = findName? TypeAlias.name aliases name)
    (hshown : ∀ a ∈ aliases, hidden a.name = false) (name : String) :
    other.structureOfName? others name =
      (context.structureOfName? aliases name).filter fun s => !hidden s.name := by
  induction aliases, name using structureOfName?.induct context generalizing others with
  | case1 aliases name hskip =>
      have hstops : context.stopsAt name = true := hskip
      rw [structureOfName?_eq, structureOfName?_eq]
      simp [hstop, hstops]
  | case2 aliases name hskip s hfound =>
      have hname : s.name = name := name_of_findName? hfound
      have hstops : context.stopsAt name = false := Bool.eq_false_iff.mpr hskip
      rw [structureOfName?_eq, structureOfName?_eq, hstructure, hfound, Option.some_or]
      cases hhidden : hidden name with
      | true => simp [hstop, hhidden, hstops, hname, Option.filter_some]
      | false => simp [hstop, hhidden, hstops, hname, Option.filter_some]
  | case3 aliases name hskip hnone hfind =>
      rw [structureOfName?_eq, structureOfName?_eq, hstructure, hnone, halias name hnone, hfind]
      simp
  | case4 aliases name hskip hnone a hfind hreference =>
      rw [structureOfName?_eq, structureOfName?_eq, hstructure, hnone, halias name hnone, hfind]
      simp [hreference]
  | case5 aliases name hskip hnone a hfind next hreference hshort ih =>
      have hname : a.name = name := name_of_findName? hfind
      have hhidden : hidden name = false := hname ▸ hshown a (mem_of_findName? hfind)
      have hstops : context.stopsAt name = false := Bool.eq_false_iff.mpr hskip
      -- neither context stops here, and both go on without the alias
      rw [structureOfName?_eq, structureOfName?_eq, hstop, hstops, hhidden, hstructure, hnone,
        halias name hnone, hfind]
      simp only [Bool.or_false, Bool.false_eq_true, if_false, Option.none_or, Option.bind_some,
        hreference]
      apply ih
      · intro wanted hwanted
        rw [findName?_removeName, findName?_removeName, halias wanted hwanted]
      · intro b hb
        exact hshown b (mem_removeName.mp hb).1

/-- Hiding names at which no alias stands hides their structures and no others. -/
theorem byValue?_hide (hidden : String → Bool)
    (hstop : ∀ name, other.stopsAt name = (context.stopsAt name || hidden name))
    (hstructure : ∀ name, other.catalog.structure? name = context.catalog.structure? name)
    (halias : ∀ name, context.catalog.structure? name = none →
      other.catalog.alias? name = context.catalog.alias? name)
    (hshown : ∀ a ∈ context.catalog.aliases, hidden a.name = false) (type : TypeExpr) :
    other.byValue? type = (context.byValue? type).filter fun s => !hidden s.name := by
  unfold byValue?
  cases type.referenceName? with
  | none => rfl
  | some name => exact structureOfName?_hide hidden hstop hstructure halias hshown name

theorem byValue?_congr (hstop : ∀ name, other.stopsAt name = context.stopsAt name)
    (hstructure : ∀ name, other.catalog.structure? name = context.catalog.structure? name)
    (halias : ∀ name, context.catalog.structure? name = none →
      other.catalog.alias? name = context.catalog.alias? name) (type : TypeExpr) :
    other.byValue? type = context.byValue? type := by
  have hhide : other.byValue? type = (context.byValue? type).filter fun _ => !false := by
    apply byValue?_hide (fun _ => false) _ hstructure halias
    · intro a _
      rfl
    · intro name
      rw [hstop, Bool.or_false]
  rw [hhide]
  cases context.byValue? type <;> rfl

/-- Hiding structures that hold nothing by value changes nothing for owners of other names: a way
to the owner passes through none of them. -/
theorem needsBox_hide {model revised : Model} {settings changed : Settings}
    (hidden : String → Bool)
    (hflatten : ∀ s, (Catalog.ofModel revised).flatten s = (Catalog.ofModel model).flatten s)
    (hvalue : ∀ type, (ofModel revised changed).byValue? type =
      ((ofModel model settings).byValue? type).filter fun s => !hidden s.name)
    (hleaf : ∀ s ∈ (Catalog.ofModel model).structures, ∀ part,
      (ofModel model settings).Contains s part → hidden s.name = false)
    {owner : String} (howner : ∀ name, Naming.typeName name = owner → hidden name = false)
    (type : TypeExpr) :
    (ofModel revised changed).needsBox owner type =
      (ofModel model settings).needsBox owner type := by
  have hcontains : ∀ s part, (ofModel revised changed).Contains s part ↔
      (ofModel model settings).Contains s part ∧ hidden part.name = false := by
    intro s part
    constructor
    · rintro ⟨property, hproperty, hpart⟩
      rw [hvalue, Option.filter_eq_some_iff, Bool.not_eq_true'] at hpart
      exact ⟨⟨property, hflatten s ▸ hproperty, hpart.1⟩, hpart.2⟩
    · rintro ⟨⟨property, hproperty, hpart⟩, hshown⟩
      refine ⟨property, (hflatten s).symm ▸ hproperty, ?_⟩
      rw [hvalue, Option.filter_eq_some_iff, Bool.not_eq_true']
      exact ⟨hpart, hshown⟩
  have hway : ∀ {s t : Structure}, Naming.typeName t.name = owner →
      ReflTransGen (ofModel model settings).Contains s t → s ∈ (Catalog.ofModel model).structures →
      hidden s.name = false ∧ ReflTransGen (ofModel revised changed).Contains s t := by
    intro s t ht hpath hs
    induction hpath using ReflTransGen.head_induction_on with
    | refl => exact ⟨howner t.name ht, ReflTransGen.refl⟩
    | head hstep _ ih =>
        obtain ⟨hshown, hpath⟩ := ih hstep.mem
        exact ⟨hleaf _ hs _ hstep, hpath.head ((hcontains _ _).mpr ⟨hstep, hshown⟩)⟩
  rw [Bool.eq_iff_iff, needsBox_iff, needsBox_iff]
  constructor
  · rintro ⟨s, hs, t, hpath, ht⟩
    rw [hvalue, Option.filter_eq_some_iff] at hs
    exact ⟨s, hs.1, t, hpath.lift id fun _ _ hstep => ((hcontains _ _).mp hstep).1, ht⟩
  · rintro ⟨s, hs, t, hpath, ht⟩
    obtain ⟨hshown, hpath⟩ := hway ht hpath (mem_of_byValue? hs)
    refine ⟨s, ?_, t, hpath, ht⟩
    rw [hvalue, Option.filter_eq_some_iff, Bool.not_eq_true']
    exact ⟨hs, hshown⟩

/-- Boxes depend on what is carried and on what is held by value. -/
theorem needsBox_congr {model revised : Model} {settings changed : Settings}
    (hflatten : ∀ s, (Catalog.ofModel revised).flatten s = (Catalog.ofModel model).flatten s)
    (hvalue : ∀ type, (ofModel revised changed).byValue? type =
      (ofModel model settings).byValue? type) {owner : String} (type : TypeExpr) :
    (ofModel revised changed).needsBox owner type =
      (ofModel model settings).needsBox owner type := by
  apply needsBox_hide (fun _ => false) hflatten
  · intro type
    rw [hvalue]
    cases (ofModel model settings).byValue? type <;> rfl
  · intro s _ part _
    rfl
  · intro name _
    rfl

/-! ## Plans -/

theorem planField_congr {owner : String} {property : Property}
    (hresolve : context.resolve property.type = other.resolve property.type)
    (hshape : context.shape property.type = other.shape property.type)
    (hbox : context.needsBox owner property.type = other.needsBox owner property.type) :
    context.planField owner property = other.planField owner property := by
  simp only [planField, hresolve, hshape, hbox]

/-- Plans depend on target types, shapes, carried properties and boxes. -/
theorem plan_congr {declaration : Declaration}
    (hresolve : ∀ type, context.resolve type = other.resolve type)
    (hshape : ∀ type, context.shape type = other.shape type)
    (hflatten : ∀ s, context.catalog.flatten s = other.catalog.flatten s)
    (hbox : ∀ s, declaration = .record s → ∀ property ∈ other.catalog.flatten s,
      context.needsBox (Naming.typeName s.name) property.type =
        other.needsBox (Naming.typeName s.name) property.type) :
    context.plan declaration = other.plan declaration := by
  cases declaration with
  | enumeration e => simp only [plan, planEnumeration, backing, hresolve]
  | record s =>
      simp only [plan, planRecord, hflatten]
      congr 2
      apply List.map_congr_left
      intro property hproperty
      exact planField_congr (hresolve _) (hshape _) (hbox s rfl property hproperty)
  | synonym a => simp only [plan, planSynonym, hresolve]

end Context

end ProtocolCodec
