import ProtocolCodec.Proofs.Emission.Runs
import ProtocolCodec.Proofs.Lowering.Dependence

/-!
# Excluding a type name

An excluded type name gets no block. It also ends the look through aliases and the search for
structures held by value, so excluding it may change other blocks. For a leaf it does not: no alias
has the name, and its structures hold nothing by value, so that no search goes on behind it.
-/

namespace ProtocolCodec

/-! ## Settings with one more exclusion -/

theorem NameSet.mem_place {name wanted : String} {names : List String} :
    wanted ∈ place name names ↔ wanted = name ∨ wanted ∈ names := by
  fun_induction place name names with
  | case1 => simp
  | case2 rest => simp
  | case3 first rest hne hlt => simp
  | case4 first rest hne hlt ih => simp [ih, or_left_comm]

/-- One more exclusion excludes one more name. -/
theorem Settings.isExcluded_exclude (settings : Settings) (name wanted : String) :
    (settings.exclude [name]).isExcluded wanted =
      (settings.isExcluded wanted || wanted == name) := by
  have hnames : (settings.exclude [name]).excluded.names =
      NameSet.place name settings.excluded.names := rfl
  rw [Bool.eq_iff_iff]
  simp [isExcluded, NameSet.has, hnames, NameSet.mem_place, or_comm]

/-- No alias has this type name, and no structure of this type name holds anything by value. -/
structure IsLeaf (model : Model) (settings : Settings) (leaf : String) : Prop where
  not_alias : ∀ a ∈ model.aliases, Naming.typeName a.name ≠ leaf
  holds_nothing : ∀ s ∈ model.structures, Naming.typeName s.name = leaf →
    ∀ property ∈ (Catalog.ofModel model).flatten s,
      (Context.ofModel model settings).byValue? property.type = none

namespace IsLeaf

open Context

variable {model : Model} {settings : Settings} {leaf : String}

/-! ## Lowering -/

theorem alias?_eq_none (h : IsLeaf model settings leaf) {name : String}
    (hname : Naming.typeName name = leaf) :
    findName? TypeAlias.name (Catalog.ofModel model).aliases name = none := by
  rw [Catalog.ofModel, findName?_keepFirst, findName?_eq_none_iff, List.mem_map]
  rintro ⟨a, ha, rfl⟩
  exact h.not_alias a ha hname

theorem resolve_exclude (type : TypeExpr) :
    (ofModel model (settings.exclude [leaf])).resolve type =
      (ofModel model settings).resolve type := by
  apply resolve_congr
  intro name
  rfl

/-- Excluding a leaf changes no shape. -/
theorem shape_exclude (h : IsLeaf model settings leaf) (type : TypeExpr) :
    (ofModel model (settings.exclude [leaf])).shape type = (ofModel model settings).shape type := by
  apply shape_congr
  · intro name
    rfl
  · intro name
    by_cases hname : Naming.typeName name = leaf
    · -- what is excluded now was no alias before
      have hnone := h.alias?_eq_none hname
      simp only [throughWith?, Context.ofModel, hnone, ite_self]
    · have hcodec : (ofModel model (settings.exclude [leaf])).hasOwnCodec name =
          (ofModel model settings).hasOwnCodec name := by
        simp only [hasOwnCodec, Context.ofModel, Settings.isExcluded_exclude,
          beq_eq_false_iff_ne.mpr hname, Bool.or_false]
      simp only [throughWith?, hcodec]
      rfl

/-- Excluding a leaf ends the search for structures held by value at the leaf and nowhere else. -/
theorem byValue?_exclude (h : IsLeaf model settings leaf) (type : TypeExpr) :
    (ofModel model (settings.exclude [leaf])).byValue? type =
      ((ofModel model settings).byValue? type).filter fun s =>
        !(Naming.typeName s.name == leaf) := by
  apply byValue?_hide fun name => Naming.typeName name == leaf
  · intro name
    simp only [stopsAt, Context.ofModel, Settings.isExcluded_exclude, Bool.or_assoc]
    rfl
  · intro name
    rfl
  · intro name _
    rfl
  · intro a ha
    exact beq_eq_false_iff_ne.mpr (h.not_alias a (mem_of_mem_keepFirst ha))

/-- Excluding a leaf changes no box of another type. -/
theorem needsBox_exclude (h : IsLeaf model settings leaf) {owner : String} (howner : owner ≠ leaf)
    (type : TypeExpr) :
    (ofModel model (settings.exclude [leaf])).needsBox owner type =
      (ofModel model settings).needsBox owner type := by
  apply needsBox_hide (fun name => Naming.typeName name == leaf) (fun _ => rfl) h.byValue?_exclude
  · rintro s hs part ⟨property, hproperty, hpart⟩
    rw [beq_eq_false_iff_ne]
    intro hname
    rw [h.holds_nothing s (mem_of_mem_keepFirst hs) hname property hproperty] at hpart
    cases hpart
  · rintro name rfl
    exact beq_eq_false_iff_ne.mpr howner

/-- Every declaration keeps its plan. Those of the excluded name do too, having no box before. -/
theorem plan_exclude (h : IsLeaf model settings leaf) {declaration : Declaration}
    (hmem : declaration ∈ model.declarations) :
    (ofModel model (settings.exclude [leaf])).plan declaration =
      (ofModel model settings).plan declaration := by
  apply plan_congr resolve_exclude h.shape_exclude (fun _ => rfl)
  rintro s rfl property hproperty
  by_cases hname : Naming.typeName s.name = leaf
  · have hs : s ∈ model.structures := by simpa [Model.declarations] using hmem
    have hnone := h.holds_nothing s hs hname property hproperty
    simp only [needsBox, h.byValue?_exclude, hnone, Option.filter_none]
  · exact h.needsBox_exclude hname property.type

end IsLeaf

/-! ## Emission -/

namespace Run

/-- One more exclusion takes the declarations of that type name from those admitted. -/
theorem admitted_exclude (settings : Settings) (leaf : String) (declarations : List Declaration) :
    ({ settings := settings.exclude [leaf] } : Run).admitted declarations =
      (({ settings } : Run).admitted declarations).filter fun d => d.typeName != leaf := by
  rw [admitted, admitted, ← keepFirst_filter (· != leaf), List.filter_filter]
  congr 1
  apply List.filter_congr
  intro declaration _
  simp only [isFree, registry, Settings.isExcluded_exclude, Bool.not_or]
  simp [bne, Bool.and_comm]

/-- Excluding a leaf takes its block from the blocks and leaves the others as they are. -/
theorem blocks_emit_exclude {model : Model} {settings : Settings} {leaf : String}
    (h : IsLeaf model settings leaf) :
    (emit { settings := settings.exclude [leaf] } model).blocks =
      (emit { settings } model).blocks.filter fun block => block.name? != some leaf := by
  have hname : ((fun block : Block => block.name? != some leaf) ∘ fun d =>
      Block.entity ((Context.ofModel model settings).plan d)) = fun d => d.typeName != leaf := by
    funext declaration
    simp [Block.name?, bne]
  rw [blocks_emit, blocks_emit, admitted_exclude, List.nil_append, List.nil_append,
    List.filter_cons_of_pos rfl, List.filter_map, hname]
  congr 1
  apply List.map_congr_left
  intro declaration hadmitted
  rw [h.plan_exclude (mem_of_mem_admitted (List.mem_filter.mp hadmitted).1)]

end Run

/-- Blocks of distinct names without the block of a name are those before it and those after it. -/
theorem exists_split_at_name {blocks : List Block} (hnodup : (blocks.filterMap Block.name?).Nodup)
    (name : String) :
    ∃ before after,
      blocks = before ++ (blocks.find? fun block => block.name? == some name).toList ++ after ∧
        (blocks.filter fun block => block.name? != some name) = before ++ after := by
  induction blocks with
  | nil => exact ⟨[], [], rfl, rfl⟩
  | cons first rest ih =>
      by_cases hfirst : first.name? = some name
      · -- no later block has the name
        rw [List.filterMap_cons_some hfirst, List.nodup_cons] at hnodup
        refine ⟨[], rest, by simp [hfirst], ?_⟩
        rw [List.filter_cons_of_neg (by simp [hfirst]), List.nil_append, List.filter_eq_self]
        intro block hblock
        rw [bne_iff_ne]
        intro hname
        exact hnodup.1 (List.mem_filterMap.mpr ⟨block, hblock, hname⟩)
      · have hrest : (rest.filterMap Block.name?).Nodup :=
          hnodup.sublist ((List.sublist_cons_self first rest).filterMap _)
        obtain ⟨before, after, hblocks, hkept⟩ := ih hrest
        refine ⟨first :: before, after, ?_, ?_⟩
        · rw [List.find?_cons_of_neg (by simp [hfirst]), List.cons_append, List.cons_append,
            ← hblocks]
        · rw [List.filter_cons_of_pos (by simp [hfirst]), hkept, List.cons_append]

/-- Excluding a leaf only removes its block, with the empty line before it, from the text. Every
declaration keeps its plan: structures still carry what they inherit from the leaf, and references
to it keep their target type, their codec and their box. -/
theorem generate_exclude_leaf (model : Model) (settings : Settings) (leaf : String)
    (hleaf : IsLeaf model settings leaf) :
    let context := Context.ofModel model settings
    let narrowed := Context.ofModel model (settings.exclude [leaf])
    let blocks := (Run.emit { settings } model).blocks
    (∃ before after,
      generate model settings = before ++
        ((blocks.find? fun block => block.name? == some leaf).elim "" Block.text) ++ after ∧
      generate model (settings.exclude [leaf]) = before ++ after) ∧
    (Run.emit { settings := settings.exclude [leaf] } model).blocks =
      blocks.filter (fun block => block.name? != some leaf) ∧
    (∀ declaration ∈ model.declarations,
      narrowed.plan declaration = context.plan declaration) ∧
    (∀ s, narrowed.catalog.flatten s = context.catalog.flatten s) ∧
    ∀ type, narrowed.resolve type = context.resolve type ∧
      narrowed.shape type = context.shape type ∧
      ∀ owner ≠ leaf, narrowed.needsBox owner type = context.needsBox owner type := by
  intro context narrowed blocks
  have hnodup : (blocks.filterMap Block.name?).Nodup := by
    have hregistry := (Run.hasEmitted_emitAll settings [model]).registry_eq
    change (Run.emitAll settings [model]).registry.Nodup
    rw [hregistry]
    exact settings.nodup_typeNames [model]
  have hblocks := Run.blocks_emit_exclude hleaf
  refine ⟨?_, hblocks, ?_, ?_, ?_⟩
  · obtain ⟨before, after, hsplit, hkept⟩ := exists_split_at_name hnodup leaf
    refine ⟨String.join (before.map Block.text), String.join (after.map Block.text), ?_, ?_⟩
    · have htext : String.join ((blocks.find? fun block => block.name? == some leaf).toList.map
          Block.text) =
          (blocks.find? fun block => block.name? == some leaf).elim "" Block.text := by
        cases blocks.find? fun block => block.name? == some leaf <;> simp
      rw [← htext, ← String.join_append, ← String.join_append, ← List.map_append,
        ← List.map_append, ← hsplit]
      rfl
    · rw [generate, Run.text, hblocks, hkept, List.map_append, String.join_append]
  · intro declaration hmem
    exact hleaf.plan_exclude hmem
  · intro s
    rfl
  · intro type
    refine ⟨IsLeaf.resolve_exclude type, hleaf.shape_exclude type, ?_⟩
    intro owner howner
    exact hleaf.needsBox_exclude howner type

/-- A structure without structures inside. -/
def position : Structure where
  name := "position"
  properties := [{ name := "line", type := .base "uinteger" }]

/-- A structure that holds positions and one that extends them. -/
def placed : Model where
  version := "1"
  structures :=
    [position,
     { name := "Span"
       properties :=
         [{ name := "start", type := .reference "position" },
          { name := "stops", type := .array (.reference "position") }] },
     { name := "Marker", extended := [.reference "position"] }]

theorem generate_exclude_leaf_placed :
    IsLeaf placed .empty "Position" ∧
      ∃ before after,
        generate placed .empty = before ++
            (Block.entity ((Context.ofModel placed .empty).plan (.record position))).text ++ after ∧
          generate placed (Settings.empty.exclude ["Position"]) = before ++ after := by
  have hposition : Naming.typeName "position" = "Position" := by decide +kernel
  have hspan : Naming.typeName "Span" ≠ "Position" := by decide +kernel
  have hmarker : Naming.typeName "Marker" ≠ "Position" := by decide +kernel
  have hleaf : IsLeaf placed .empty "Position" := by
    constructor
    · simp [placed]
    · intro s hs hname property hproperty
      simp only [placed, List.mem_cons, List.not_mem_nil, or_false] at hs
      rcases hs with rfl | rfl | rfl
      · have hflatten : (Catalog.ofModel placed).flatten position = position.properties := by cbv
        rw [hflatten, position, List.mem_singleton] at hproperty
        rw [hproperty]
        rfl
      · exact absurd hname hspan
      · exact absurd hname hmarker
  have hblock : ((Run.emit { settings := .empty } placed).blocks.find? fun block =>
      block.name? == some "Position") =
      some (.entity ((Context.ofModel placed .empty).plan (.record position))) := by
    have hadmitted : ({ settings := .empty } : Run).admitted placed.declarations =
        placed.declarations := rfl
    rw [Run.blocks_emit, hadmitted]
    simp [placed, position, Model.declarations, Block.name?, Declaration.typeName,
      Declaration.name, hposition]
  obtain ⟨before, after, hall, hkept⟩ := (generate_exclude_leaf placed .empty "Position" hleaf).1
  rw [hblock] at hall
  exact ⟨hleaf, before, after, hall, hkept⟩

end ProtocolCodec
