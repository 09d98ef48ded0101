import Mathlib.Algebra.GroupWithZero.Nat
import Mathlib.Data.List.Induction
import ProtocolCodec.Proofs.Emission

/-!
# What a run has done

A run emits metamodels one after the other. At every point its registry, its counts and its text are
functions of the metamodels so far: each declaration is emitted, excluded or a duplicate, and what
is emitted is the first declaration of every type name that is new and not excluded. One metamodel
preserves this, so it holds of runs of any length.
-/

namespace ProtocolCodec

/-! ## What metamodels add -/

namespace Settings

/-- The type names that metamodels bring in when they are emitted in turn: those declared and not
excluded, each at its first occurrence. -/
def typeNames (settings : Settings) (models : List Model) : List String :=
  keepFirst id <| ((models.flatMap Model.declarations).map Declaration.typeName).filter
    fun typeName => typeName ∉ settings.excluded.names

/-- The type names that a metamodel adds to those of the metamodels before it. -/
def addedNames (settings : Settings) (earlier : List Model) (model : Model) : List String :=
  (settings.typeNames (earlier ++ [model])).drop (settings.typeNames earlier).length

/-- The text for a type name: that of the first declaration of the name in a metamodel. -/
def entityText (settings : Settings) (model : Model) (typeName : String) : String :=
  match findName? Declaration.typeName model.declarations typeName with
  | some declaration => ((Context.ofModel model settings).plan declaration).text
  | none => ""

/-- What is written for a metamodel: a banner and, for every name it adds, an empty line and the
text of the name. -/
def partText (settings : Settings) (earlier : List Model) (model : Model) : String :=
  (Block.banner model.version).text ++
    String.join ((settings.addedNames earlier model).map fun typeName =>
      "\n" ++ settings.entityText model typeName)

variable (settings : Settings) (earlier : List Model) (model : Model)

theorem nodup_typeNames (models : List Model) : (settings.typeNames models).Nodup := by
  rw [← List.map_id (settings.typeNames models)]
  exact nodup_keepFirst _

theorem not_mem_excluded_of_mem_typeNames {models : List Model} {typeName : String}
    (h : typeName ∈ settings.typeNames models) : typeName ∉ settings.excluded.names := by
  rw [typeNames, mem_keepFirst_id, List.mem_filter] at h
  simpa using h.2

/-- The names a metamodel adds are those it declares that are neither excluded nor there. -/
theorem typeNames_concat :
    settings.typeNames (earlier ++ [model]) =
      settings.typeNames earlier ++ keepFirst id ((model.declarations.map
        Declaration.typeName).filter fun typeName =>
          decide (typeName ∉ settings.excluded.names) &&
            !(settings.typeNames earlier).contains typeName) := by
  have hconcat : settings.typeNames (earlier ++ [model]) =
      addAllFirst id (settings.typeNames earlier) ((model.declarations.map
        Declaration.typeName).filter fun typeName => typeName ∉ settings.excluded.names) := by
    rw [typeNames, List.flatMap_append, List.map_append, List.filter_append,
      List.flatMap_singleton, keepFirst, addAllFirst_append]
    rfl
  rw [hconcat, addAllFirst_eq_append, List.filter_filter]
  congr 2
  apply List.filter_congr
  intro typeName _
  have hname : hasName id (settings.typeNames earlier) (id typeName) =
      (settings.typeNames earlier).contains typeName := by
    rw [Bool.eq_iff_iff, hasName_iff]
    simp
  rw [Bool.and_comm, hname]

/-- The names of a metamodel are added behind those of the metamodels before it. -/
theorem typeNames_append_addedNames :
    settings.typeNames earlier ++ settings.addedNames earlier model =
      settings.typeNames (earlier ++ [model]) := by
  rw [addedNames, typeNames_concat, List.drop_left]

theorem exists_of_mem_addedNames {typeName : String}
    (h : typeName ∈ settings.addedNames earlier model) :
    ∃ declaration, findName? Declaration.typeName model.declarations typeName =
      some declaration := by
  rw [addedNames, typeNames_concat, List.drop_left, mem_keepFirst_id, List.mem_filter,
    ← findName?_isSome_iff] at h
  exact Option.isSome_iff_exists.mp h.1

/-- In a sequence of metamodels, mapping each with those before it goes on at the end. -/
theorem mapIdx_take_concat {α : Type} (f : List Model → Model → α) :
    ((earlier ++ [model]).mapIdx fun i m => f ((earlier ++ [model]).take i) m) =
      (earlier.mapIdx fun i m => f (earlier.take i) m) ++ [f earlier model] := by
  rw [List.mapIdx_concat, List.take_left]
  congr 1
  rw [List.mapIdx_eq_mapIdx_iff]
  intro i hi
  rw [List.take_append_of_le_length hi.le]

/-- What the metamodels add one by one is all there is. -/
theorem flatten_addedNames (models : List Model) :
    (models.mapIdx fun i m => settings.addedNames (models.take i) m).flatten =
      settings.typeNames models := by
  induction models using List.reverseRecOn with
  | nil => rfl
  | append_singleton earlier model ih =>
      rw [mapIdx_take_concat earlier model settings.addedNames, List.flatten_append, ih,
        List.flatten_singleton, typeNames_append_addedNames]

end Settings

/-! ## One metamodel -/

namespace Summary

/-- The number of declarations emitted. -/
def emitted (summary : Summary) : Nat :=
  summary.enumerations + summary.structures + summary.aliases

/-- The number of declarations passed over. -/
def passedOver (summary : Summary) : Nat :=
  summary.excluded + summary.duplicates

/-- What a summary says about the last metamodel. -/
def heading (summary : Summary) : String × Nat × Nat :=
  (summary.version, summary.requests, summary.notifications)

end Summary

namespace Run

variable (context : Context) (run : Run)

theorem emitted_count (summary : Summary) (declaration : Declaration) :
    (summary.count declaration).emitted = summary.emitted + 1 := by
  cases declaration with
  | enumeration e => simp only [Summary.count, Summary.emitted]; omega
  | record s => simp only [Summary.count, Summary.emitted]; omega
  | synonym a => simp only [Summary.count, Summary.emitted]; omega

/-- A declaration is counted once, as emitted just when it is registered, and does not touch what a
summary says about the metamodel. -/
theorem summary_declare (declaration : Declaration) :
    (declare context run declaration).summary.heading = run.summary.heading ∧
      (declare context run declaration).summary.emitted +
        (declare context run declaration).summary.passedOver =
          run.summary.emitted + run.summary.passedOver + 1 ∧
      (declare context run declaration).summary.emitted + run.registry.length =
        run.summary.emitted + (declare context run declaration).registry.length := by
  unfold declare
  split
  next =>
    -- excluded
    refine ⟨rfl, ?_, rfl⟩
    simp only [Summary.emitted, Summary.passedOver]
    omega
  next =>
    split
    next =>
      -- taken
      refine ⟨rfl, ?_, rfl⟩
      simp only [Summary.emitted, Summary.passedOver]
      omega
    next =>
      -- emitted: the one case in which the registry grows
      refine ⟨?_, ?_, ?_⟩
      · cases declaration <;> rfl
      · have hpassed : (run.summary.count declaration).passedOver = run.summary.passedOver := by
          cases declaration <;> rfl
        rw [emitted_count, hpassed]
        omega
      · rw [emitted_count]
        simp only [registry, List.filterMap_append, List.length_append]
        simp [Block.name?]
        omega

/-- Every declaration of a list is counted once, as emitted just when it is registered. -/
theorem summary_foldl_declare (declarations : List Declaration) :
    (declarations.foldl (declare context) run).summary.heading = run.summary.heading ∧
      (declarations.foldl (declare context) run).summary.emitted +
        (declarations.foldl (declare context) run).summary.passedOver =
          run.summary.emitted + run.summary.passedOver + declarations.length ∧
      (declarations.foldl (declare context) run).summary.emitted + run.registry.length =
        run.summary.emitted + (declarations.foldl (declare context) run).registry.length := by
  induction declarations generalizing run with
  | nil => exact ⟨rfl, rfl, rfl⟩
  | cons first rest ih =>
      obtain ⟨hheading, hcounted, hregistered⟩ := ih (declare context run first)
      obtain ⟨hfirst, hone, hentry⟩ := summary_declare context run first
      rw [List.foldl_cons, List.length_cons]
      exact ⟨hheading.trans hfirst, by omega, by omega⟩

/-! ## Whole runs -/

/-- A run has emitted these metamodels in turn. -/
structure HasEmitted (settings : Settings) (models : List Model) (run : Run) : Prop where
  settings_eq : run.settings = settings
  registry_eq : run.registry = settings.typeNames models
  emitted_eq : run.summary.emitted = run.registry.length
  counted_eq : run.summary.emitted + run.summary.passedOver =
    (models.flatMap Model.declarations).length
  text_eq : run.text =
    String.join (models.mapIdx fun i model => settings.partText (models.take i) model)

theorem hasEmitted_nil (settings : Settings) : HasEmitted settings [] { settings } :=
  ⟨rfl, rfl, rfl, rfl, rfl⟩

variable {run} {settings : Settings} {earlier : List Model} (model : Model)

/-- The declarations a metamodel has admitted are those of the names it adds. -/
theorem HasEmitted.map_admitted (h : HasEmitted settings earlier run) :
    (run.admitted model.declarations).map Declaration.typeName =
      settings.addedNames earlier model := by
  have hfree : run.isFree = fun typeName =>
      decide (typeName ∉ settings.excluded.names) &&
        !(settings.typeNames earlier).contains typeName := by
    funext typeName
    rw [isFree, h.settings_eq, h.registry_eq, settings.not_isExcluded_eq]
  rw [Settings.addedNames, Settings.typeNames_concat, List.drop_left, admitted, keepFirst,
    map_addAllFirst, hfree, List.filter_map]
  rfl

/-- Emitting a metamodel registers the names it adds. -/
theorem HasEmitted.registry_emit (h : HasEmitted settings earlier run) :
    (run.emit model).registry = settings.typeNames (earlier ++ [model]) := by
  have hadmitted : (run.emit model).registry =
      run.registry ++ (run.admitted model.declarations).map Declaration.typeName := by
    rw [registry, blocks_emit, List.filterMap_append, List.filterMap_cons, Block.name?,
      List.filterMap_map]
    congr 1
    rw [← List.filterMap_eq_map]
    apply List.filterMap_congr
    intro declaration _
    simp [Block.name?]
  rw [hadmitted, h.map_admitted, h.registry_eq, Settings.typeNames_append_addedNames]

theorem entityText_of_mem_admitted {declaration : Declaration}
    (h : declaration ∈ run.admitted model.declarations) :
    settings.entityText model declaration.typeName =
      ((Context.ofModel model settings).plan declaration).text := by
  rw [Settings.entityText, findName?_of_mem_admitted h]

/-- Emitting a metamodel writes the part of that metamodel behind the text so far. -/
theorem HasEmitted.text_emit (h : HasEmitted settings earlier run) :
    (run.emit model).text = run.text ++ settings.partText earlier model := by
  have hentities : ((run.admitted model.declarations).map fun declaration =>
      Block.entity ((Context.ofModel model settings).plan declaration)).map Block.text =
      (settings.addedNames earlier model).map fun typeName =>
        "\n" ++ settings.entityText model typeName := by
    rw [← h.map_admitted, List.map_map, List.map_map]
    apply List.map_congr_left
    intro declaration hadmitted
    rw [Function.comp_apply, Function.comp_apply, entityText_of_mem_admitted model hadmitted]
    rfl
  rw [text, blocks_emit, h.settings_eq, List.map_append, String.join_append, List.map_cons,
    String.join_cons, hentities]
  rfl

/-- The step of a run: with one more metamodel it has emitted that one too. -/
theorem HasEmitted.emit (h : HasEmitted settings earlier run) :
    HasEmitted settings (earlier ++ [model]) (run.emit model) := by
  have hregistry : (run.begin model).registry = run.registry := by
    simp [registry, begin, Block.name?]
  obtain ⟨-, hcounted, hregistered⟩ := summary_foldl_declare
    (Context.ofModel model run.settings) (run.begin model) model.declarations
  rw [hregistry] at hregistered
  have hbegin : (run.begin model).summary.emitted = run.summary.emitted ∧
      (run.begin model).summary.passedOver = run.summary.passedOver := ⟨rfl, rfl⟩
  rw [hbegin.1] at hregistered
  rw [hbegin.1, hbegin.2] at hcounted
  constructor
  · have hsettings := (blocks_foldl_declare (Context.ofModel model run.settings)
      (run.begin model) model.declarations).1
    exact hsettings.trans h.settings_eq
  · exact h.registry_emit model
  · rw [h.emitted_eq] at hregistered
    exact Nat.add_left_cancel ((Nat.add_comm _ _).trans hregistered)
  · rw [List.flatMap_append, List.length_append, List.flatMap_singleton, ← h.counted_eq]
    exact hcounted
  · rw [h.text_emit, h.text_eq, Settings.mapIdx_take_concat earlier model settings.partText,
      String.join_append, String.join_cons, String.join_nil, String.append_empty]

/-- The run that emits metamodels in turn. -/
def emitAll (settings : Settings) (models : List Model) : Run :=
  models.foldl Run.emit { settings }

/-- By its steps, a run has emitted all the metamodels it was given. -/
theorem hasEmitted_emitAll (settings : Settings) (models : List Model) :
    HasEmitted settings models (emitAll settings models) := by
  induction models using List.reverseRecOn with
  | nil => exact hasEmitted_nil settings
  | append_singleton earlier model ih =>
      rw [emitAll, List.foldl_append]
      exact ih.emit model

/-- The summary speaks of the metamodel emitted last. -/
theorem heading_emit :
    (run.emit model).summary.heading =
      (model.version, model.requests.length, model.notifications.length) :=
  (summary_foldl_declare (Context.ofModel model run.settings) (run.begin model)
    model.declarations).1

theorem length_declarations (models : List Model) :
    (models.flatMap Model.declarations).length =
      (models.map fun m => m.enumerations.length + m.structures.length + m.aliases.length).sum := by
  rw [List.length_flatMap]
  congr 1
  apply List.map_congr_left
  intro m _
  simp [Model.declarations, Nat.add_assoc]

/-- Whenever a run has emitted a metamodel: the registry has the type names declared so far that are
not excluded, at their first occurrence; each of them is counted as emitted and every declaration is
counted once; the text has for each metamodel a banner and, for the names it added in their order,
an empty line and the text of the first declaration of the name; no name is there twice and none
that is excluded; and the summary speaks of the last metamodel. -/
theorem emitAll_concat (settings : Settings) (earlier : List Model) (last : Model) :
    let models := earlier ++ [last]
    let run := emitAll settings models
    run.registry = settings.typeNames models ∧
    (run.summary.enumerations + run.summary.structures + run.summary.aliases =
        run.registry.length ∧
      run.summary.enumerations + run.summary.structures + run.summary.aliases +
          run.summary.excluded + run.summary.duplicates =
        (models.map fun m =>
          m.enumerations.length + m.structures.length + m.aliases.length).sum) ∧
    (run.text = String.join (models.mapIdx fun i m => settings.partText (models.take i) m) ∧
      run.registry = (models.mapIdx fun i m => settings.addedNames (models.take i) m).flatten ∧
      (∀ typeName ∈ settings.addedNames earlier last, ∃ declaration,
        findName? Declaration.typeName last.declarations typeName = some declaration) ∧
      run.registry.Nodup ∧
      ∀ typeName ∈ run.registry, typeName ∉ settings.excluded.names) ∧
    run.summary.version = last.version ∧
    run.summary.requests = last.requests.length ∧
    run.summary.notifications = last.notifications.length := by
  intro models run
  have h : HasEmitted settings models run := hasEmitted_emitAll settings models
  have hheading : run.summary.heading =
      (last.version, last.requests.length, last.notifications.length) := by
    change (emitAll settings (earlier ++ [last])).summary.heading = _
    rw [emitAll, List.foldl_append]
    exact heading_emit last
  simp only [Summary.heading, Prod.mk.injEq] at hheading
  refine ⟨h.registry_eq, ⟨h.emitted_eq, ?_⟩, ⟨h.text_eq, ?_, ?_, ?_, ?_⟩, hheading⟩
  · rw [← length_declarations, ← h.counted_eq, Nat.add_assoc _ _ run.summary.duplicates]
    rfl
  · rw [h.registry_eq, Settings.flatten_addedNames]
  · intro typeName hadded
    exact settings.exists_of_mem_addedNames earlier last hadded
  · rw [h.registry_eq]
    exact settings.nodup_typeNames _
  · intro typeName hname
    rw [h.registry_eq] at hname
    exact settings.not_mem_excluded_of_mem_typeNames hname

end Run

end ProtocolCodec
