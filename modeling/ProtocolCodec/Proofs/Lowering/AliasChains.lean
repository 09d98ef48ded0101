import ProtocolCodec.Proofs.Lowering.Dependence

/-!
# Chains of aliases

Two walks go along reference aliases. The one for boxes looks for a structure and passes over
enumerations; the one for shapes stops at either. They start together and go on together until the
first name that is declared as a structure or an enumeration. So what is held by value, and may have
to be boxed, always has a codec by name.
-/

namespace ProtocolCodec

/-- Whether a name is declared as a structure or as an enumeration. -/
def Model.declaresEntity (model : Model) (name : String) : Bool :=
  hasName Structure.name model.structures name || hasName Enumeration.name model.enumerations name

namespace Context

/-- The first name is an alias of a reference to the second. -/
def AliasOf (context : Context) (name next : String) : Prop :=
  ∃ a, context.catalog.alias? name = some a ∧ a.type = .reference next

/-- Going from a name along reference aliases, as far as the first structure, comes by these names
and ends at this structure. -/
inductive Leads (context : Context) : String → List String → Structure → Prop where
  | arrived {name : String} {s : Structure} (hfound : context.catalog.structure? name = some s) :
      Leads context name [name] s
  | onward {name next : String} {chain : List String} {s : Structure}
      (hnone : context.catalog.structure? name = none) (halias : context.AliasOf name next)
      (hrest : Leads context next chain s) : Leads context name (name :: chain) s

variable {context : Context} {aliases : List TypeAlias} {name : String} {chain : List String}
  {s : Structure}

namespace Leads

theorem head?_eq (h : context.Leads name chain s) : chain.head? = some name := by
  cases h <;> rfl

theorem getLast?_eq (h : context.Leads name chain s) : chain.getLast? = some s.name := by
  induction h with
  | arrived hfound => rw [name_of_findName? hfound, List.getLast?_singleton]
  | onward _ _ _ ih => rw [List.getLast?_cons, ih, Option.getD_some]

/-- A name leads along one chain only. -/
theorem unique {other : List String} {t : Structure} (h : context.Leads name chain s)
    (hother : context.Leads name other t) : chain = other := by
  induction h generalizing other with
  | arrived hfound =>
      cases hother with
      | arrived _ => rfl
      | onward hnone _ _ => simp [hfound] at hnone
  | onward hnone halias _ ih =>
      cases hother with
      | arrived hfound => simp [hnone] at hfound
      | onward _ halias' hrest =>
          obtain ⟨a, ha, hnext⟩ := halias
          obtain ⟨b, hb, hnext'⟩ := halias'
          obtain rfl : a = b := Option.some.inj (ha.symm.trans hb)
          obtain rfl := TypeExpr.reference.inj (hnext.symm.trans hnext')
          rw [ih hrest]

/-- From every name on a chain the rest of the chain leads to the same structure. -/
theorem exists_suffix {passed : String} (h : context.Leads name chain s) (hmem : passed ∈ chain) :
    ∃ rest, rest <:+ chain ∧ context.Leads passed rest s := by
  induction h with
  | arrived hfound =>
      rw [List.mem_singleton.mp hmem]
      exact ⟨_, List.suffix_rfl, .arrived hfound⟩
  | @onward name next chain s hnone halias hrest ih =>
      rcases List.mem_cons.mp hmem with rfl | hmem
      · exact ⟨_, List.suffix_rfl, .onward hnone halias hrest⟩
      · obtain ⟨rest, hsuffix, hleads⟩ := ih hmem
        exact ⟨rest, hsuffix.trans (List.suffix_cons _ _), hleads⟩

/-- A chain that ends comes by no name twice: from there it would go on for ever. -/
theorem nodup (h : context.Leads name chain s) : chain.Nodup := by
  induction h with
  | arrived _ => exact List.nodup_singleton _
  | @onward name next chain s hnone halias hrest ih =>
      refine List.nodup_cons.mpr ⟨?_, ih⟩
      intro hmem
      obtain ⟨rest, hsuffix, hleads⟩ := hrest.exists_suffix hmem
      have heq := hleads.unique (.onward hnone halias hrest)
      have hlength := hsuffix.length_le
      rw [heq, List.length_cons] at hlength
      omega

end Leads

/-! ## The walk for boxes -/

/-- A structure found behind a name is found along a chain on which nothing stops. -/
theorem exists_leads_of_structureOfName?
    (haliases : ∀ wanted a, findName? TypeAlias.name aliases wanted = some a →
      context.catalog.alias? wanted = some a)
    (h : context.structureOfName? aliases name = some s) :
    ∃ chain, context.Leads name chain s ∧ ∀ passed ∈ chain, context.stopsAt passed = false := by
  fun_induction structureOfName? context aliases name with
  | case1 aliases name hskip => cases h
  | case2 aliases name hskip found hfound =>
      cases h
      refine ⟨[name], .arrived hfound, ?_⟩
      simpa [stopsAt] using hskip
  | case3 aliases name hskip hfound hnone => cases h
  | case4 aliases name hskip hfound a halias hname => cases h
  | case5 aliases name hskip hnone a hfind next hnext hshort ih =>
      have hrest : ∀ wanted b,
          findName? TypeAlias.name (removeName TypeAlias.name aliases name) wanted = some b →
          context.catalog.alias? wanted = some b := by
        intro wanted b hb
        rw [findName?_removeName] at hb
        split at hb
        next => cases hb
        next => exact haliases wanted b hb
      obtain ⟨chain, hleads, hclear⟩ := ih hrest h
      have htype : a.type = .reference next := by
        cases htype : a.type <;> simp_all [TypeExpr.referenceName?]
      refine ⟨name :: chain, .onward hnone ⟨a, haliases name a hfind, htype⟩ hleads, ?_⟩
      rw [List.forall_mem_cons]
      exact ⟨Bool.eq_false_iff.mpr hskip, hclear⟩

/-- Taking the alias of a name away leaves those of the names that come after it. -/
theorem findName?_removeName_of_nodup (hnodup : (name :: chain).Nodup)
    (haliases : ∀ passed ∈ name :: chain,
      findName? TypeAlias.name aliases passed = context.catalog.alias? passed) :
    ∀ passed ∈ chain, findName? TypeAlias.name (removeName TypeAlias.name aliases name) passed =
      context.catalog.alias? passed := by
  intro passed hpassed
  have hne : passed ≠ name := by
    rintro rfl
    exact (List.nodup_cons.mp hnodup).1 hpassed
  rw [findName?_removeName_of_ne hne]
  exact haliases passed (List.mem_cons_of_mem _ hpassed)

/-- Along a chain on which nothing stops its structure is found. -/
theorem Leads.structureOfName?_eq (h : context.Leads name chain s)
    (hclear : ∀ passed ∈ chain, context.stopsAt passed = false)
    (haliases : ∀ passed ∈ chain,
      findName? TypeAlias.name aliases passed = context.catalog.alias? passed) :
    context.structureOfName? aliases name = some s := by
  induction h generalizing aliases with
  | arrived hfound =>
      rw [Context.structureOfName?_eq, hclear _ List.mem_cons_self, hfound]
      rfl
  | @onward name next chain s hnone halias hrest ih =>
      have hnodup := (Leads.onward hnone halias hrest).nodup
      obtain ⟨a, ha, hnext⟩ := halias
      rw [Context.structureOfName?_eq, hclear _ List.mem_cons_self, hnone,
        haliases _ List.mem_cons_self, ha]
      simp only [Bool.false_eq_true, if_false, Option.none_or, Option.bind_some, hnext,
        TypeExpr.referenceName?]
      exact ih (List.forall_mem_cons.mp hclear).2 (findName?_removeName_of_nodup hnodup haliases)

theorem Leads.byValue?_eq (h : context.Leads name chain s)
    (hclear : ∀ passed ∈ chain, context.stopsAt passed = false) :
    context.byValue? (.reference name) = some s :=
  h.structureOfName?_eq hclear fun _ _ => rfl

/-- What a type holds by value is found along a chain on which nothing stops. -/
theorem exists_leads_of_byValue? {type : TypeExpr} (h : context.byValue? type = some s) :
    ∃ name chain, type = .reference name ∧ context.Leads name chain s ∧
      ∀ passed ∈ chain, context.stopsAt passed = false := by
  obtain ⟨name, hname, hvalue⟩ := Option.bind_eq_some_iff.mp h
  have htype : type = .reference name := by
    cases type <;> simp_all [TypeExpr.referenceName?]
  obtain ⟨chain, hleads, hclear⟩ := exists_leads_of_structureOfName? (fun _ _ ha => ha) hvalue
  exact ⟨name, chain, htype, hleads, hclear⟩

/-- Whatever else is declared under the names of a chain of reference aliases, going along it ends
at the first structure. -/
theorem exists_leads_of_isChain {rest : List String}
    (hchain : List.IsChain context.AliasOf (name :: rest))
    (hfirst : (name :: rest).findSome? context.catalog.structure? = some s) :
    ∃ chain, context.Leads name chain s ∧ chain ⊆ name :: rest := by
  induction rest generalizing name with
  | nil =>
      refine ⟨[name], .arrived ?_, List.Subset.refl _⟩
      simpa using hfirst
  | cons next rest ih =>
      rw [List.findSome?_cons] at hfirst
      cases hfound : context.catalog.structure? name with
      | some found =>
          rw [hfound] at hfirst
          cases hfirst
          exact ⟨[name], .arrived hfound, by simp⟩
      | none =>
          rw [hfound] at hfirst
          obtain ⟨halias, hrest⟩ := List.isChain_cons_cons.mp hchain
          obtain ⟨chain, hleads, hsubset⟩ := ih hrest hfirst
          exact ⟨name :: chain, .onward hfound halias hleads, List.cons_subset_cons _ hsubset⟩

/-! ## The walk for shapes -/

theorem isSome_or_isSome_eq (model : Model) (name : String) :
    (((Catalog.ofModel model).structure? name).isSome ||
      ((Catalog.ofModel model).enumeration? name).isSome) = model.declaresEntity name := by
  rw [Catalog.structure?_ofModel, Catalog.enumeration?_ofModel, Bool.eq_iff_iff, Bool.or_eq_true,
    Model.declaresEntity, Bool.or_eq_true, findName?_isSome_iff, findName?_isSome_iff,
    hasName_iff, hasName_iff]

section

variable {model : Model} {settings : Settings}

/-- Where the search does not stop, a name has a codec of its own just when it is declared as an
entity. -/
theorem hasOwnCodec_eq_declaresEntity (h : (ofModel model settings).stopsAt name = false) :
    (ofModel model settings).hasOwnCodec name = model.declaresEntity name := by
  have hexcluded : (ofModel model settings).settings.isExcluded (Naming.typeName name) = false :=
    (Bool.or_eq_false_iff.mp h).2
  rw [hasOwnCodec, hexcluded, Bool.false_or]
  exact isSome_or_isSome_eq model name

/-- The shape is the codec of the first name on the chain that is declared as a structure or an
enumeration. -/
theorem Leads.exists_shapeWith_eq (h : (ofModel model settings).Leads name chain s)
    (hclear : ∀ passed ∈ chain, (ofModel model settings).stopsAt passed = false)
    (haliases : ∀ passed ∈ chain, findName? TypeAlias.name aliases passed =
      (ofModel model settings).catalog.alias? passed) :
    ∃ first, chain.find? model.declaresEntity = some first ∧
      (ofModel model settings).shapeWith aliases (.reference name) =
        .entity (Naming.typeName first) := by
  induction h generalizing aliases with
  | @arrived name s hfound =>
      have hstops := hclear name List.mem_cons_self
      have hdeclared : model.declaresEntity name = true := by
        have hfound : (Catalog.ofModel model).structure? name = some s := hfound
        rw [← isSome_or_isSome_eq, hfound]
        rfl
      refine ⟨name, by simp [hdeclared], ?_⟩
      rw [shapeWith_reference, hasOwnCodec_eq_declaresEntity hstops, hdeclared,
        (Bool.or_eq_false_iff.mp hstops).1]
      rfl
  | @onward name next chain s hnone halias hrest ih =>
      have hstops := hclear name List.mem_cons_self
      rw [shapeWith_reference, hasOwnCodec_eq_declaresEntity hstops,
        (Bool.or_eq_false_iff.mp hstops).1]
      cases hdeclared : model.declaresEntity name with
      | true => exact ⟨name, by simp [hdeclared], rfl⟩
      | false =>
          have hnodup := (Leads.onward hnone halias hrest).nodup
          obtain ⟨a, ha, hnext⟩ := halias
          obtain ⟨first, hfirst, hshape⟩ := ih (List.forall_mem_cons.mp hclear).2
            (findName?_removeName_of_nodup hnodup haliases)
          refine ⟨first, by simpa [hdeclared] using hfirst, ?_⟩
          rw [haliases name List.mem_cons_self, ha]
          simpa [hnext] using hshape

/-- Where no enumeration is in the way, the structure at the end is the first declaration met. -/
theorem Leads.find?_eq (h : (ofModel model settings).Leads name chain s)
    (henum : ∀ passed ∈ chain, passed ∉ model.enumerations.map Enumeration.name) :
    chain.find? model.declaresEntity = some s.name := by
  induction h with
  | @arrived name s hfound =>
      have hfound : (Catalog.ofModel model).structure? name = some s := hfound
      have hdeclared : model.declaresEntity name = true := by
        rw [← isSome_or_isSome_eq, hfound]
        rfl
      rw [List.find?_cons_of_pos hdeclared, name_of_findName? hfound]
  | @onward name next chain s hnone halias hrest ih =>
      have hnone : (Catalog.ofModel model).structure? name = none := hnone
      have hdeclared : ¬ model.declaresEntity name = true := by
        rw [← isSome_or_isSome_eq, hnone, Catalog.enumeration?_ofModel, Option.isSome_none,
          Bool.false_or, findName?_isSome_iff]
        exact henum name List.mem_cons_self
      rw [List.find?_cons_of_neg hdeclared]
      exact ih (List.forall_mem_cons.mp henum).2

end

/-- Holding a structure by value and having a codec by name go together. What a type holds by value
is found along a chain of references, and the codec of the type is that of the first name on the
chain that is declared as a structure or an enumeration; it is that of the structure itself when no
enumeration is in the way. So a type that has to be boxed has a named target and a codec by name.
Conversely, a chain of reference aliases without string aliases and excluded names gives the first
structure on it. -/
theorem held_has_codec (model : Model) (settings : Settings) (type : TypeExpr) :
    let context := ofModel model settings
    (∀ s, context.byValue? type = some s → ∃ name chain, type = .reference name ∧
      context.Leads name chain s ∧ chain.head? = some name ∧ chain.getLast? = some s.name ∧
      (∀ passed ∈ chain, settings.isStringAlias passed = false ∧
        settings.isExcluded (Naming.typeName passed) = false) ∧
      (∃ first, chain.find? model.declaresEntity = some first ∧
        context.shape type = .entity (Naming.typeName first)) ∧
      ((∀ passed ∈ chain, passed ∉ model.enumerations.map Enumeration.name) →
        context.shape type = .entity (Naming.typeName s.name))) ∧
    (∀ owner, context.needsBox owner type = true →
      (∃ name, context.resolve type = .named name) ∧ ∃ name, context.shape type = .entity name) ∧
    ∀ name rest s, type = .reference name → List.IsChain context.AliasOf (name :: rest) →
      (∀ passed ∈ name :: rest, settings.isStringAlias passed = false ∧
        settings.isExcluded (Naming.typeName passed) = false) →
      (name :: rest).findSome? context.catalog.structure? = some s →
      context.byValue? type = some s := by
  intro context
  have hstops : ∀ passed, context.stopsAt passed = false ↔
      settings.isStringAlias passed = false ∧
        settings.isExcluded (Naming.typeName passed) = false :=
    fun passed => Bool.or_eq_false_iff
  refine ⟨?_, ?_, ?_⟩
  · intro s hs
    obtain ⟨name, chain, rfl, hleads, hclear⟩ := exists_leads_of_byValue? hs
    obtain ⟨first, hfirst, hshape⟩ := hleads.exists_shapeWith_eq hclear fun _ _ => rfl
    refine ⟨name, chain, rfl, hleads, hleads.head?_eq, hleads.getLast?_eq,
      fun passed hpassed => (hstops passed).mp (hclear passed hpassed),
      ⟨first, hfirst, hshape⟩, ?_⟩
    intro henum
    rw [hleads.find?_eq henum, Option.some.injEq] at hfirst
    rw [hfirst]
    exact hshape
  · intro owner hbox
    obtain ⟨s, hs, -⟩ := (needsBox_iff model settings owner type).mp hbox
    obtain ⟨name, chain, rfl, hleads, hclear⟩ := exists_leads_of_byValue? hs
    obtain ⟨first, -, hshape⟩ := hleads.exists_shapeWith_eq hclear fun _ _ => rfl
    refine ⟨⟨Naming.typeName name, ?_⟩, Naming.typeName first, hshape⟩
    have hmem : name ∈ chain := List.mem_of_head? hleads.head?_eq
    have hstring : context.settings.isStringAlias name = false :=
      ((hstops name).mp (hclear name hmem)).1
    rw [resolve, hstring]
    rfl
  · rintro name rest s rfl hchain hclear hfirst
    obtain ⟨chain, hleads, hsubset⟩ := exists_leads_of_isChain hchain hfirst
    exact hleads.byValue?_eq fun passed hpassed =>
      (hstops passed).mpr (hclear passed (hsubset hpassed))

/-- A structure that holds itself under another name. -/
def knot : Structure where
  name := "Knot"
  properties := [{ name := "again", type := .reference "outer" }]

/-- Two aliases lead to the structure; the second has the name of an enumeration too. -/
def knotted : Model where
  version := "1"
  structures := [knot]
  enumerations := [{ name := "inner", type := .base "string" }]
  aliases := [{ name := "outer", type := .reference "inner" },
    { name := "inner", type := .reference "Knot" }]

/-- The box is for the structure, the codec is that of the enumeration in the way. -/
theorem held_has_codec_knotted :
    (ofModel knotted .empty).byValue? (.reference "outer") = some knot ∧
      (ofModel knotted .empty).shape (.reference "outer") = .entity "Inner" := by
  have hchain : List.IsChain (ofModel knotted .empty).AliasOf ["outer", "inner", "Knot"] :=
    .cons_cons ⟨_, rfl, rfl⟩ (.cons_cons ⟨_, rfl, rfl⟩ (.singleton _))
  have hvalue := (held_has_codec knotted .empty (.reference "outer")).2.2 "outer"
    ["inner", "Knot"] knot rfl hchain (by decide +kernel) rfl
  refine ⟨hvalue, ?_⟩
  obtain ⟨name, chain, hname, hleads, -, -, -, ⟨first, hfirst, hshape⟩, -⟩ :=
    (held_has_codec knotted .empty (.reference "outer")).1 knot hvalue
  obtain rfl := TypeExpr.reference.inj hname
  have hfollowed : (ofModel knotted .empty).Leads "outer" ["outer", "inner", "Knot"] knot :=
    .onward rfl ⟨_, rfl, rfl⟩ (.onward rfl ⟨_, rfl, rfl⟩ (.arrived rfl))
  have hinner : ["outer", "inner", "Knot"].find? knotted.declaresEntity = some "inner" := by
    decide +kernel
  rw [hleads.unique hfollowed, hinner, Option.some.injEq] at hfirst
  rw [hshape, ← hfirst]
  decide +kernel

end Context

end ProtocolCodec
