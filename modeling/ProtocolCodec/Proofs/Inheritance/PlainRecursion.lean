import Mathlib.Data.Set.Finite.List
import ProtocolCodec.Proofs.Inheritance.Hierarchy

/-!
# The walk is plain recursion

Where no way up leads back, the properties a structure carries can be said without a pool and
without a stack: flatten each parent on its own, one after the other, put the structure's own
properties behind, and keep the first of each name. A shared ancestor then comes up several times,
but all it has is there after the first time. That is what the walk relies on when it passes over a
structure it has entered before.
-/

namespace ProtocolCodec.Catalog

open Relation Inheritance

variable {catalog : Catalog} {s t u : Structure}

/-- From a structure on upwards, nothing leads back to its own name. -/
def Acyclic (catalog : Catalog) (s : Structure) : Prop :=
  ∀ t, ReflTransGen catalog.Inherits s t → ∀ u, TransGen catalog.Inherits t u → u.name ≠ t.name

/-- Above a structure without cycles there are none either. -/
theorem Acyclic.above (h : catalog.Acyclic s) (ht : ReflTransGen catalog.Inherits s t) :
    catalog.Acyclic t :=
  fun u hu => h u (ht.trans hu)

/-- Without a cycle every way up ends, as the catalog is finite. -/
theorem Acyclic.acc (h : catalog.Acyclic s) : Acc (flip catalog.Inherits) s := by
  let above := {t | ReflTransGen catalog.Inherits s t}
  have hfinite : above.Finite := by
    refine Set.Finite.subset (List.finite_toSet (s :: catalog.structures)) ?_
    intro t ht
    rcases ReflTransGen.cases_tail ht with rfl | ⟨_, _, hstep⟩
    · exact List.mem_cons_self
    · exact List.mem_cons_of_mem _ (mem_of_findName? (inherits_iff.mp hstep).2)
  have := hfinite.to_subtype
  let Over : above → above → Prop := fun t u => TransGen catalog.Inherits u.1 t.1
  have htrans : IsTrans above Over := ⟨fun _ _ _ hab hbc => hbc.trans hab⟩
  have hirrefl : Std.Irrefl Over := ⟨fun t ht => h t.1 t.2 t.1 ht rfl⟩
  have hwf : WellFounded Over := Finite.wellFounded_of_trans_of_irrefl Over
  have hacc : ∀ t : above, Acc (flip catalog.Inherits) t.1 := by
    intro t
    induction t using hwf.induction with
    | _ t ih =>
        refine Acc.intro _ fun parent hparent => ?_
        exact ih ⟨parent, t.2.tail hparent⟩ (TransGen.single hparent)
  exact hacc ⟨s, ReflTransGen.refl⟩

/-- The properties of a structure by plain recursion: those of the parents, each flattened on its
own, and then its own, the first of each name. Every way up has to end. -/
def plain (catalog : Catalog) (s : Structure) (h : Acc (flip catalog.Inherits) s) :
    List Property :=
  keepFirst Property.name
    ((catalog.parents s).attach.flatMap (fun ⟨parent, hparent⟩ =>
      catalog.plain parent (h.inv (mem_parents_iff.mp hparent))) ++ s.properties)
termination_by (⟨s, h⟩ : {s // Acc (flip catalog.Inherits) s})
decreasing_by exact mem_parents_iff.mp hparent

/-- A function that satisfies the recursive equation everywhere above a structure. -/
def FlattensAbove (catalog : Catalog) (s : Structure) (carried : Structure → List Property) :
    Prop :=
  ∀ t, ReflTransGen catalog.Inherits s t →
    carried t = keepFirst Property.name ((catalog.parents t).flatMap carried ++ t.properties)

/-! ## What the tasks on the stack stand for -/

/-- What a task adds when every structure is flattened on its own. -/
def promised (catalog : Catalog) (carried : Structure → List Property) : Task → List Property
  | .enter name => ((catalog.structure? name).map carried).getD []
  | .add properties => properties

variable {carried : Structure → List Property}

/-- The tasks of a structure stand for what its parents carry and then its own properties. -/
theorem promised_tasksOf (t : Structure) :
    (tasksOf t).flatMap (catalog.promised carried) =
      (catalog.parents t).flatMap carried ++ t.properties := by
  rw [tasksOf, List.flatMap_append, List.flatMap_singleton, parents_eq]
  congr 1
  induction t.parents with
  | nil => rfl
  | cons name rest ih =>
      rw [List.map_cons, List.flatMap_cons, ih, List.filterMap_cons, promised]
      cases catalog.structure? name with
      | none => rfl
      | some parent => rfl

/-- Each structure waiting to be entered finds that what has left the pool above it has nothing new
to give by then: `known` are the properties found and those promised before. -/
def Ready (catalog : Catalog) (s : Structure) (carried : Structure → List Property)
    (pool : List Structure) : List Property → List Task → Prop
  | _, [] => True
  | known, .add properties :: tasks => Ready catalog s carried pool (known ++ properties) tasks
  | known, .enter name :: tasks =>
      (∀ t, catalog.structure? name = some t → ReflTransGen catalog.Inherits s t ∧
        ∀ u, ReflTransGen catalog.Inherits t u → findName? Structure.name pool u.name = none →
          (carried u).map Property.name ⊆ known.map Property.name) ∧
      Ready catalog s carried pool (known ++ catalog.promised carried (.enter name)) tasks

variable {pool : List Structure} {known found : List Property} {tasks : List Task}

/-- Tasks stay ready when more is known. -/
theorem Ready.mono (h : catalog.Ready s carried pool known tasks) {more : List Property}
    (hmore : known.map Property.name ⊆ more.map Property.name) :
    catalog.Ready s carried pool more tasks := by
  induction tasks generalizing known more with
  | nil => trivial
  | cons task tasks ih =>
      have happend : ∀ properties : List Property,
          (known ++ properties).map Property.name ⊆ (more ++ properties).map Property.name := by
        intro properties name hname
        rw [List.map_append, List.mem_append] at hname ⊢
        exact hname.imp_left fun hold => hmore hold
      cases task with
      | add properties => exact ih h (happend _)
      | enter name =>
          refine ⟨?_, ih h.2 (happend _)⟩
          intro t ht
          obtain ⟨habove, hcarried⟩ := h.1 t ht
          exact ⟨habove, fun u hu hleft => List.Subset.trans (hcarried u hu hleft) hmore⟩

/-- Tasks are ready one after the other when each part is, given what the first one promises. -/
theorem Ready.append {more : List Task} (h : catalog.Ready s carried pool known tasks)
    (hmore : catalog.Ready s carried pool
      (known ++ tasks.flatMap (catalog.promised carried)) more) :
    catalog.Ready s carried pool known (tasks ++ more) := by
  induction tasks generalizing known with
  | nil => simpa using hmore
  | cons task tasks ih =>
      rw [List.flatMap_cons, ← List.append_assoc] at hmore
      cases task with
      | add properties => exact ih h hmore
      | enter name => exact ⟨h.1, ih h.2 hmore⟩

/-- A structure may leave the pool when all it carries is known. -/
theorem Ready.remove (h : catalog.Ready s carried pool known tasks)
    (ht : catalog.structure? t.name = some t)
    (hknown : (carried t).map Property.name ⊆ known.map Property.name) :
    catalog.Ready s carried (removeName Structure.name pool t.name) known tasks := by
  induction tasks generalizing known with
  | nil => trivial
  | cons task tasks ih =>
      have happend : ∀ properties : List Property,
          (carried t).map Property.name ⊆ (known ++ properties).map Property.name := by
        intro properties name hname
        rw [List.map_append, List.mem_append]
        exact Or.inl (hknown hname)
      cases task with
      | add properties => exact ih h (happend _)
      | enter name =>
          refine ⟨?_, ih h.2 (happend _)⟩
          intro first hfirst
          obtain ⟨habove, hcarried⟩ := h.1 first hfirst
          refine ⟨habove, fun u hu hleft => ?_⟩
          rw [findName?_removeName] at hleft
          by_cases hname : u.name = t.name
          · obtain rfl : first.name = name := name_of_findName? hfirst
            have hfound := structure?_of_reaches hfirst hu
            rw [hname, ht, Option.some.injEq] at hfound
            exact hfound ▸ hknown
          · rw [if_neg hname] at hleft
            exact hcarried u hu hleft

/-- The tasks of a structure are ready when all that has left the pool above it is known. -/
theorem ready_tasksOf (habove : ReflTransGen catalog.Inherits s t)
    (hknown : ∀ u, TransGen catalog.Inherits t u → findName? Structure.name pool u.name = none →
      (carried u).map Property.name ⊆ known.map Property.name) :
    catalog.Ready s carried pool known (tasksOf t) := by
  have henter : ∀ (names : List String) (known : List Property), names ⊆ t.parents →
      (∀ u, TransGen catalog.Inherits t u → findName? Structure.name pool u.name = none →
        (carried u).map Property.name ⊆ known.map Property.name) →
      catalog.Ready s carried pool known (names.map .enter) := by
    intro names
    induction names with
    | nil => exact fun _ _ _ => trivial
    | cons name names ih =>
        intro known hnames hknown
        obtain ⟨hname, hrest⟩ := List.cons_subset.mp hnames
        constructor
        · intro parent hparent
          have hstep : catalog.Inherits t parent := by
            obtain rfl : parent.name = name := name_of_findName? hparent
            exact inherits_iff.mpr ⟨hname, hparent⟩
          exact ⟨habove.tail hstep, fun u hu hleft => hknown u (.head' hstep hu) hleft⟩
        · refine ih _ hrest fun u hu hleft other hother => ?_
          rw [List.map_append, List.mem_append]
          exact Or.inl (hknown u hu hleft hother)
  exact (henter _ _ (List.Subset.refl _) hknown).append trivial

/-! ## The walk -/

/-- Adding what the tasks of a structure stand for is adding what it carries. -/
theorem addAllFirst_promised_tasksOf (hcarried : catalog.FlattensAbove s carried)
    (habove : ReflTransGen catalog.Inherits s t) (found : List Property) :
    addAllFirst Property.name found ((tasksOf t).flatMap (catalog.promised carried)) =
      addAllFirst Property.name found (carried t) := by
  rw [promised_tasksOf, hcarried t habove, addAllFirst_keepFirst]

/-- A walk that is ready finds what its tasks stand for. -/
theorem walk_eq_addAllFirst_promised (hcarried : catalog.FlattensAbove s carried)
    (hacyclic : catalog.Acyclic s) (hpool : catalog.PoolWithin s pool)
    (hready : catalog.Ready s carried pool found tasks) :
    walk pool found tasks =
      addAllFirst Property.name found (tasks.flatMap (catalog.promised carried)) := by
  fun_induction walk pool found tasks with
  | case1 pool found => rfl
  | case2 pool found properties tasks ih =>
      have hmore : (found ++ properties).map Property.name ⊆
          (addAllFirst Property.name found properties).map Property.name := by
        intro name hname
        rw [List.map_append, List.mem_append] at hname
        exact (mem_names_addAllFirst properties).mpr hname
      have hrest : catalog.Ready s carried pool (found ++ properties) tasks := hready
      rw [ih hpool (hrest.mono hmore), List.flatMap_cons, addAllFirst_append]
      rfl
  | case3 pool found name tasks hnone ih =>
      -- a structure passed over has nothing new to give
      have hnothing : (catalog.promised carried (.enter name)).map Property.name ⊆
          found.map Property.name := by
        rw [promised]
        cases hfound : catalog.structure? name with
        | none => exact List.nil_subset _
        | some t =>
            obtain rfl : t.name = name := name_of_findName? hfound
            exact (hready.1 t hfound).2 t .refl hnone
      have hrest : catalog.Ready s carried pool found tasks := by
        refine hready.2.mono ?_
        rw [List.map_append]
        exact List.append_subset.mpr ⟨List.Subset.refl _, hnothing⟩
      rw [ih hpool hrest, List.flatMap_cons, addAllFirst_append, addAllFirst_of_subset hnothing]
  | case4 pool found name tasks t hentered hshort ih =>
      have hfound := (hpool name t hentered).1
      obtain rfl : t.name = name := name_of_findName? hfound
      obtain ⟨habove, hleft⟩ := hready.1 t hfound
      have hpromised : catalog.promised carried (.enter t.name) = carried t := by
        rw [promised, hfound]
        rfl
      have htasks : catalog.Ready s carried (removeName Structure.name pool t.name) found
          (tasksOf t) := by
        refine ready_tasksOf habove fun u hu hgone => ?_
        -- what stands above the structure is not the structure again
        rw [findName?_removeName_of_ne (hacyclic t habove u hu)] at hgone
        exact hleft u hu.to_reflTransGen hgone
      have hrest : catalog.Ready s carried (removeName Structure.name pool t.name)
          (found ++ (tasksOf t).flatMap (catalog.promised carried)) tasks := by
        have hsame : (carried t).map Property.name ⊆
            ((tasksOf t).flatMap (catalog.promised carried)).map Property.name := by
          intro other hother
          rw [promised_tasksOf]
          rw [hcarried t habove, keepFirst, mem_names_addAllFirst] at hother
          exact hother.resolve_left List.not_mem_nil
        have hready := hready.2
        rw [hpromised] at hready
        refine (hready.remove hfound ?_).mono ?_
        · rw [List.map_append]
          exact List.subset_append_right _ _
        · rw [List.map_append, List.map_append]
          exact List.append_subset.mpr
            ⟨List.subset_append_left _ _, List.subset_append_of_subset_right _ hsame⟩
      rw [ih (hpool.remove t.name) (htasks.append hrest), List.flatMap_append, addAllFirst_append,
        addAllFirst_promised_tasksOf hcarried habove, List.flatMap_cons, addAllFirst_append,
        hpromised]

/-- On a hierarchy without cycles, any function that satisfies the recursive equation is what the
walk computes. -/
theorem flatten_eq_of_flattensAbove (hcarried : catalog.FlattensAbove s carried)
    (hacyclic : catalog.Acyclic s) : catalog.flatten s = carried s := by
  have hready : catalog.Ready s carried
      (removeName Structure.name catalog.structures s.name) [] (tasksOf s) := by
    refine ready_tasksOf .refl fun u hu hgone => ?_
    -- all but the name of the start is in the pool, and nothing leads back to that
    have hfound : catalog.structure? u.name = some u := by
      obtain ⟨_, _, hstep⟩ := TransGen.tail'_iff.mp hu
      exact (inherits_iff.mp hstep).2
    rw [findName?_removeName_of_ne (hacyclic s .refl u hu)] at hgone
    rw [structure?, hgone] at hfound
    cases hfound
  rw [flatten, walk_eq_addAllFirst_promised hcarried hacyclic (poolWithin_start catalog s) hready,
    addAllFirst_promised_tasksOf hcarried .refl, hcarried s .refl, addAllFirst_keepFirst]
  rfl

/-! ## Plain recursion -/

/-- Plain recursion as a function of every structure; what has an endless way up gets nothing. -/
noncomputable def plainOrNothing (catalog : Catalog) (s : Structure) : List Property :=
  open Classical in
  if h : Acc (flip catalog.Inherits) s then catalog.plain s h else []

theorem plainOrNothing_eq (h : Acc (flip catalog.Inherits) s) :
    catalog.plainOrNothing s = catalog.plain s h :=
  dif_pos h

/-- Plain recursion satisfies the recursive equation. -/
theorem Acyclic.flattensAbove (h : catalog.Acyclic s) :
    catalog.FlattensAbove s catalog.plainOrNothing := by
  intro t ht
  have hacc := (h.above ht).acc
  have hparents : (catalog.parents t).attach.flatMap (fun ⟨parent, hparent⟩ =>
      catalog.plain parent (hacc.inv (mem_parents_iff.mp hparent))) =
      (catalog.parents t).flatMap catalog.plainOrNothing := by
    have hattach := List.attach_map_subtype_val (catalog.parents t)
    conv_rhs => rw [← hattach, List.flatMap_map]
    refine List.flatMap_congr fun parent _ => ?_
    exact (plainOrNothing_eq (hacc.inv (mem_parents_iff.mp parent.2))).symm
  rw [plainOrNothing_eq hacc, plain, hparents]

/-- What a structure carries, from what its parents carry. -/
theorem Acyclic.flatten_eq (h : catalog.Acyclic s) :
    catalog.flatten s =
      keepFirst Property.name ((catalog.parents s).flatMap catalog.flatten ++ s.properties) := by
  have hparents : (catalog.parents s).flatMap catalog.flatten =
      (catalog.parents s).flatMap catalog.plainOrNothing := by
    refine List.flatMap_congr fun parent hparent => ?_
    have habove := h.above (.single (mem_parents_iff.mp hparent))
    exact flatten_eq_of_flattensAbove habove.flattensAbove habove
  rw [hparents, ← h.flattensAbove s .refl]
  exact flatten_eq_of_flattensAbove h.flattensAbove h

/-- Where nothing above a structure, itself included, leads back to its own name, the structure
carries what plain recursion gives, in the same order. So what the first parent carries comes first
and in its order, and under the name of an inherited property a structure carries what its parents
carry, not what it declares itself. -/
theorem flatten_eq_plain (model : Model) (s : Structure) (h : (ofModel model).Acyclic s) :
    (ofModel model).flatten s = (ofModel model).plain s h.acc ∧
    (∀ parent, ((ofModel model).parents s).head? = some parent →
      (ofModel model).flatten parent <+: (ofModel model).flatten s) ∧
    ∀ inherited ∈ ((ofModel model).parents s).flatMap (ofModel model).flatten,
      findName? Property.name ((ofModel model).flatten s) inherited.name =
        findName? Property.name (((ofModel model).parents s).flatMap (ofModel model).flatten)
          inherited.name := by
  refine ⟨?_, ?_, ?_⟩
  · rw [flatten_eq_of_flattensAbove h.flattensAbove h, plainOrNothing_eq]
  · intro parent hparent
    obtain ⟨others, hparents⟩ := List.head?_eq_some_iff.mp hparent
    have hmem : (ofModel model).Inherits s parent := by
      rw [← mem_parents_iff, hparents]
      exact List.mem_cons_self
    rw [h.flatten_eq, hparents, List.flatMap_cons, List.append_assoc, keepFirst,
      addAllFirst_append]
    -- what the parent carries has distinct names already
    have hkept : addAllFirst Property.name [] ((ofModel model).flatten parent) =
        (ofModel model).flatten parent := by
      rw [(h.above (.single hmem)).flatten_eq]
      exact addAllFirst_keepFirst _
    rw [hkept]
    exact prefix_addAllFirst _
  · intro inherited hinherited
    have hsome : (findName? Property.name
        (((ofModel model).parents s).flatMap (ofModel model).flatten) inherited.name).isSome :=
      findName?_isSome_iff.mpr (List.mem_map_of_mem hinherited)
    rw [h.flatten_eq, findName?_keepFirst, findName?_append, Option.or_of_isSome hsome]

/-- A structure below two others that extend one, with a property of the name that all inherit. -/
def bottom : Structure where
  name := "Bottom"
  properties := [{ name := "top", type := .base "integer" }]
  extended := [.reference "Left"]
  mixins := [.reference "Right"]

/-- A structure, two that extend it and one below both. -/
def diamond : Model where
  version := "1"
  structures :=
    [{ name := "Top", properties := [{ name := "top", type := .base "string" }] },
     extending "Left" "left" "Top", extending "Right" "right" "Top", bottom]

/-- How many steps the names of the diamond are below its top. -/
def diamondDepth (name : String) : Nat :=
  if name = "Bottom" then 2 else if name = "Left" ∨ name = "Right" then 1 else 0

theorem acyclic_diamond : (ofModel diamond).Acyclic bottom := by
  have hdepth : ∀ t ∈ diamond.structures, ∀ name ∈ t.parents,
      diamondDepth name < diamondDepth t.name := by
    decide
  have hstep : ∀ t ∈ diamond.structures, ∀ parent, (ofModel diamond).Inherits t parent →
      parent ∈ diamond.structures ∧ diamondDepth parent.name < diamondDepth t.name := by
    intro t ht parent hparent
    obtain ⟨hname, hfound⟩ := inherits_iff.mp hparent
    rw [structure?_ofModel] at hfound
    exact ⟨mem_of_findName? hfound, hdepth t ht parent.name hname⟩
  have habove : ∀ t, ReflTransGen (ofModel diamond).Inherits bottom t → t ∈ diamond.structures := by
    intro t ht
    induction ht with
    | refl => simp [diamond]
    | tail _ hparent ih => exact (hstep _ ih _ hparent).1
  intro t ht u hu
  have hless : u ∈ diamond.structures ∧ diamondDepth u.name < diamondDepth t.name := by
    induction hu with
    | single hparent => exact hstep t (habove t ht) _ hparent
    | tail _ hparent ih =>
        obtain ⟨hmem, hmore⟩ := hstep _ ih.1 _ hparent
        exact ⟨hmem, hmore.trans ih.2⟩
  intro heq
  rw [heq] at hless
  exact lt_irrefl _ hless.2

/-- What the bottom of the diamond carries: the property of the top once and as the top declares it,
then that of the structure it extends and that of the one it mixes in. -/
theorem flatten_eq_plain_diamond :
    (ofModel diamond).flatten bottom = (ofModel diamond).plain bottom acyclic_diamond.acc ∧
      (ofModel diamond).plain bottom acyclic_diamond.acc =
        [{ name := "top", type := .base "string" }, { name := "left", type := .base "string" },
         { name := "right", type := .base "string" }] ∧
      (ofModel diamond).flatten (extending "Left" "left" "Top") <+:
        (ofModel diamond).flatten bottom := by
  obtain ⟨hplain, hfirst, _⟩ := flatten_eq_plain diamond bottom acyclic_diamond
  have hcarried : (ofModel diamond).flatten bottom =
      [{ name := "top", type := .base "string" }, { name := "left", type := .base "string" },
       { name := "right", type := .base "string" }] := by
    cbv
  exact ⟨hplain, hplain ▸ hcarried, hfirst _ rfl⟩

end ProtocolCodec.Catalog
