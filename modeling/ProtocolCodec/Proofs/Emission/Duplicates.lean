import ProtocolCodec.Proofs.Emission
import ProtocolCodec.Proofs.Lowering.Dependence

/-!
# Later duplicates are inert

Declarations are told apart twice: look-ups go by the name the schema gives, emission by the type
name. Either way the first one counts, and a structure comes before an alias. So declarations whose
name has come before, and aliases with the name of a structure, can be deleted, any number of them
at once, and the text stays the same.
-/

namespace ProtocolCodec

/-! ## Striking out entries -/

section

variable {α β : Type} {name : α → String} {known : List String} {struck : Nat → Bool}
  {entries : List α} {wanted : String}

/-- The entries whose positions are not struck out. -/
def strike (struck : Nat → Bool) (entries : List α) : List α :=
  (entries.zipIdx.filter fun entry => !struck entry.2).map Prod.fst

/-- Every entry that is struck out has a name that is known or has come before. -/
def StrikesRepeats (name : α → String) (known : List String) (struck : Nat → Bool)
    (entries : List α) : Prop :=
  ∀ entry ∈ entries.zipIdx, struck entry.2 = true →
    name entry.1 ∈ known ∨ name entry.1 ∈ (entries.take entry.2).map name

instance : Decidable (StrikesRepeats name known struck entries) :=
  inferInstanceAs (Decidable (∀ entry ∈ entries.zipIdx, _))

theorem strike_concat (entries : List α) (entry : α) :
    strike struck (entries ++ [entry]) =
      strike struck entries ++ if struck entries.length then [] else [entry] := by
  rw [strike, strike, List.zipIdx_append, List.filter_append, List.map_append]
  congr 1
  cases h : struck entries.length <;> simp [h]

theorem map_strike (f : α → β) : (strike struck entries).map f = strike struck (entries.map f) := by
  induction entries using List.reverseRecOn with
  | nil => rfl
  | append_singleton rest last ih =>
      rw [List.map_append, List.map_singleton, strike_concat, strike_concat, List.map_append, ih,
        List.length_map]
      cases struck rest.length <;> rfl

/-- A last entry may be struck when its name is known or there before. -/
theorem strikesRepeats_concat {entry : α} :
    StrikesRepeats name known struck (entries ++ [entry]) ↔
      StrikesRepeats name known struck entries ∧
        (struck entries.length = true → name entry ∈ known ∨ name entry ∈ entries.map name) := by
  rw [StrikesRepeats, List.zipIdx_append, List.forall_mem_append]
  apply and_congr
  · apply forall₂_congr
    intro other hother
    rw [take_concat_of_mem_zipIdx hother]
  · simp

/-- Entries of one name have one type name. -/
theorem StrikesRepeats.typeName (f : α → Declaration) (hname : ∀ entry, (f entry).name = name entry)
    (h : StrikesRepeats name known struck entries) :
    StrikesRepeats Declaration.typeName (known.map Naming.typeName) struck (entries.map f) := by
  induction entries using List.reverseRecOn with
  | nil => nofun
  | append_singleton rest last ih =>
      obtain ⟨hrest, hlast⟩ := strikesRepeats_concat.mp h
      have htypeName : ∀ entry, (f entry).typeName = Naming.typeName (name entry) := by
        intro entry
        rw [Declaration.typeName, hname]
      have hnames : (rest.map f).map Declaration.typeName =
          (rest.map name).map Naming.typeName := by
        simp [htypeName]
      rw [List.map_append, List.map_singleton, strikesRepeats_concat, List.length_map, htypeName,
        hnames]
      refine ⟨ih hrest, ?_⟩
      intro hstruck
      exact (hlast hstruck).imp (List.mem_map_of_mem ·) (List.mem_map_of_mem ·)

/-- Striking out repeats does not change which entries are added. -/
theorem StrikesRepeats.addAllFirst_strike {earlier : List α}
    (h : StrikesRepeats name known struck entries) (hknown : known ⊆ earlier.map name) :
    addAllFirst name earlier (strike struck entries) = addAllFirst name earlier entries := by
  induction entries using List.reverseRecOn with
  | nil => rfl
  | append_singleton rest last ih =>
      obtain ⟨hrest, hlast⟩ := strikesRepeats_concat.mp h
      rw [strike_concat, addAllFirst_append, addAllFirst_append, ih hrest]
      cases hstruck : struck rest.length with
      | false => rfl
      | true =>
          have hold : name last ∈ (addAllFirst name earlier rest).map name :=
            (mem_names_addAllFirst rest).mpr ((hlast hstruck).imp_left (@hknown _))
          exact (addFirst_of_mem hold).symm

/-- Striking repeats does not change what is kept. -/
theorem StrikesRepeats.keepFirst_strike (h : StrikesRepeats name [] struck entries) :
    keepFirst name (strike struck entries) = keepFirst name entries :=
  h.addAllFirst_strike (List.nil_subset _)

/-- A look-up does not see whether repeats are struck out, unless it is of a known name. -/
theorem StrikesRepeats.findName?_strike (h : StrikesRepeats name known struck entries)
    (hwanted : wanted ∉ known) :
    findName? name (strike struck entries) wanted = findName? name entries wanted := by
  induction entries using List.reverseRecOn with
  | nil => rfl
  | append_singleton rest last ih =>
      obtain ⟨hrest, hlast⟩ := strikesRepeats_concat.mp h
      rw [strike_concat, findName?_append, ih hrest]
      cases hstruck : struck rest.length with
      | false => exact (findName?_append [last]).symm
      | true =>
          have hkept : findName? name (rest ++ [last]) wanted = findName? name rest wanted := by
            by_cases hname : name last = wanted
            · have hold : name last ∈ rest.map name :=
                (hlast hstruck).resolve_left (hname ▸ hwanted)
              rw [findName?_append, ← findName?_addFirst, addFirst_of_mem hold]
            · simp [findName?, hname]
          rw [hkept]
          exact Option.or_none

end

/-! ## Deleting declarations -/

/-- Positions in the lists of declarations of a metamodel. -/
structure Deletion where
  structures : Nat → Bool
  enumerations : Nat → Bool
  aliases : Nat → Bool

/-- A metamodel without the declarations at some positions. -/
def Model.delete (model : Model) (deletion : Deletion) : Model :=
  { model with
    structures := strike deletion.structures model.structures
    enumerations := strike deletion.enumerations model.enumerations
    aliases := strike deletion.aliases model.aliases }

/-- What is deleted is a declaration whose name is there earlier in its list, or an alias with the
name of a structure. -/
structure Deletion.Redundant (deletion : Deletion) (model : Model) : Prop where
  structures : StrikesRepeats Structure.name [] deletion.structures model.structures
  enumerations : StrikesRepeats Enumeration.name [] deletion.enumerations model.enumerations
  aliases : StrikesRepeats TypeAlias.name (model.structures.map Structure.name) deletion.aliases
    model.aliases

namespace Deletion.Redundant

open Context

variable {deletion : Deletion} {model : Model} {settings : Settings}

/-! ## Look-ups -/

/-- Deleting redundant declarations leaves the structures of the catalog. -/
theorem structures_delete (h : deletion.Redundant model) :
    (Catalog.ofModel (model.delete deletion)).structures = (Catalog.ofModel model).structures :=
  h.structures.keepFirst_strike

theorem enumerations_delete (h : deletion.Redundant model) :
    (Catalog.ofModel (model.delete deletion)).enumerations = (Catalog.ofModel model).enumerations :=
  h.enumerations.keepFirst_strike

theorem structure?_delete (h : deletion.Redundant model) (name : String) :
    (Catalog.ofModel (model.delete deletion)).structure? name =
      (Catalog.ofModel model).structure? name := by
  rw [Catalog.structure?, h.structures_delete, Catalog.structure?]

theorem flatten_delete (h : deletion.Redundant model) (s : Structure) :
    (Catalog.ofModel (model.delete deletion)).flatten s = (Catalog.ofModel model).flatten s := by
  rw [Catalog.flatten, h.structures_delete, Catalog.flatten]

/-- Aliases of other names than structures are found as before. -/
theorem alias?_delete (h : deletion.Redundant model) {name : String}
    (hname : (Catalog.ofModel model).structure? name = none) :
    (Catalog.ofModel (model.delete deletion)).alias? name =
      (Catalog.ofModel model).alias? name := by
  rw [Catalog.structure?_ofModel, findName?_eq_none_iff] at hname
  rw [Catalog.alias?_ofModel, Catalog.alias?_ofModel]
  exact h.aliases.findName?_strike hname

/-! ## Lowering -/

theorem resolve_delete (type : TypeExpr) :
    (ofModel (model.delete deletion) settings).resolve type =
      (ofModel model settings).resolve type := by
  apply resolve_congr
  intro name
  rfl

/-- Deleting redundant declarations changes no shape. -/
theorem shape_delete (h : deletion.Redundant model) (type : TypeExpr) :
    (ofModel (model.delete deletion) settings).shape type =
      (ofModel model settings).shape type := by
  apply shape_congr
  · intro name
    rfl
  · intro name
    have hcodec : (ofModel (model.delete deletion) settings).hasOwnCodec name =
        (ofModel model settings).hasOwnCodec name := by
      simp only [hasOwnCodec, ofModel, h.structure?_delete, Catalog.enumeration?,
        h.enumerations_delete]
    cases hstructure : (Catalog.ofModel model).structure? name with
    | some s =>
        -- the structure has a codec of its own, whatever the aliases are
        have hown : (ofModel model settings).hasOwnCodec name = true := by
          simp [hasOwnCodec, ofModel, hstructure]
        simp only [throughWith?, hcodec, hown, Bool.or_true, if_true]
    | none =>
        simp only [throughWith?, hcodec]
        congr 1
        exact h.alias?_delete hstructure

/-- Deleting redundant declarations changes no box. -/
theorem needsBox_delete (h : deletion.Redundant model) (owner : String) (type : TypeExpr) :
    (ofModel (model.delete deletion) settings).needsBox owner type =
      (ofModel model settings).needsBox owner type := by
  apply needsBox_congr h.flatten_delete
  apply byValue?_congr
  · intro name
    rfl
  · exact h.structure?_delete
  · intro name hname
    exact h.alias?_delete hname

/-- Deleting redundant declarations changes no plan. -/
theorem plan_delete (h : deletion.Redundant model) (declaration : Declaration) :
    (ofModel (model.delete deletion) settings).plan declaration =
      (ofModel model settings).plan declaration := by
  apply plan_congr resolve_delete h.shape_delete h.flatten_delete
  intro s _ property _
  exact h.needsBox_delete _ property.type

/-! ## Emission -/

/-- The first declarations of each type name stay. -/
theorem keepFirst_declarations_delete (h : deletion.Redundant model) :
    keepFirst Declaration.typeName (model.delete deletion).declarations =
      keepFirst Declaration.typeName model.declarations := by
  have henumerations := h.enumerations.typeName .enumeration fun _ => rfl
  have hstructures := h.structures.typeName .record fun _ => rfl
  have haliases := h.aliases.typeName .synonym fun _ => rfl
  -- by the time of the aliases the type names of all structures are taken
  have htaken : ∀ earlier : List Declaration,
      (model.structures.map Structure.name).map Naming.typeName ⊆
        (addAllFirst Declaration.typeName earlier (model.structures.map .record)).map
          Declaration.typeName := by
    intro earlier typeName hmem
    rw [mem_names_addAllFirst, List.map_map]
    rw [List.map_map] at hmem
    exact Or.inr hmem
  simp only [Model.declarations, Model.delete, map_strike, keepFirst, addAllFirst_append]
  rw [henumerations.addAllFirst_strike (List.nil_subset _),
    hstructures.addAllFirst_strike (List.nil_subset _), haliases.addAllFirst_strike (htaken _)]

end Deletion.Redundant

/-- Deleting redundant declarations leaves the blocks of a run as they are. -/
theorem Run.blocks_emit_delete {deletion : Deletion} {model : Model}
    (h : deletion.Redundant model) (run : Run) :
    (run.emit (model.delete deletion)).blocks = (run.emit model).blocks := by
  have hadmitted : run.admitted (model.delete deletion).declarations =
      run.admitted model.declarations := by
    rw [admitted, admitted, keepFirst_filter run.isFree, keepFirst_filter run.isFree,
      h.keepFirst_declarations_delete]
  rw [blocks_emit, blocks_emit, hadmitted]
  simp only [h.plan_delete]
  rfl

/-- Deleting any declarations whose names have come before in their lists, and any aliases with
names of structures, does not change the text. -/
theorem generate_delete (model : Model) (settings : Settings) (deletion : Deletion)
    (h : deletion.Redundant model) :
    generate (model.delete deletion) settings = generate model settings := by
  rw [generate, generate, Run.text, Run.text, Run.blocks_emit_delete h]

/-- Names declared again, each time as something else. -/
def repetitive : Model where
  version := "1"
  structures :=
    [{ name := "Point", properties := [{ name := "x", type := .reference "Kind" }] },
     { name := "Point", properties := [{ name := "next", type := .reference "Point" }] }]
  enumerations :=
    [{ name := "Kind", type := .base "string" }, { name := "Kind", type := .base "integer" }]
  aliases :=
    [{ name := "Point", type := .base "string" }, { name := "Points", type := .base "string" },
     { name := "Points", type := .array (.reference "Point") }]

/-- Everything declared again, and the alias with the name of a structure. -/
def repetitions : Deletion where
  structures i := i == 1
  enumerations i := i == 1
  aliases i := i == 0 || i == 2

theorem generate_delete_repetitive :
    repetitions.Redundant repetitive ∧
      (repetitive.delete repetitions).declarations.length = 3 ∧
      generate (repetitive.delete repetitions) .standard = generate repetitive .standard := by
  have hredundant : repetitions.Redundant repetitive :=
    ⟨by decide, by decide, by decide⟩
  exact ⟨hredundant, rfl, generate_delete repetitive .standard repetitions hredundant⟩

end ProtocolCodec
