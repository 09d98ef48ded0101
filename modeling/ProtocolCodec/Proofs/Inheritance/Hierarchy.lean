import Mathlib.Logic.Relation
import ProtocolCodec.Proofs.Inheritance

/-!
# A structure carries its whole hierarchy

The walk over parents enters each structure once, whatever cycles there are. It misses nothing,
because a structure that has left the pool has only parents that have left it too or are still
waiting on the stack. So a structure carries exactly the property names found among itself and
everything above it.

The structure to start from need not be the one the catalog has under its name; a walk from it never
enters that other structure.
-/

namespace ProtocolCodec

open Relation Inheritance

namespace Catalog

/-- The structure that the catalog has under the name a type refers to. -/
def referred? (catalog : Catalog) : TypeExpr → Option Structure
  | .reference name => catalog.structure? name
  | _ => none

/-- The parents of a structure that the catalog has, in declaration order. -/
def parents (catalog : Catalog) (s : Structure) : List Structure :=
  (s.extended ++ s.mixins).filterMap catalog.referred?

/-- One step up, from a structure to one that it extends or mixes in by a name under which the
catalog has it. -/
def Inherits (catalog : Catalog) (s parent : Structure) : Prop :=
  (.reference parent.name ∈ s.extended ∨ .reference parent.name ∈ s.mixins) ∧
    catalog.structure? parent.name = some parent

/-- The hierarchy of a structure: the structure itself and everything reached by steps up that do
not come back to its name. -/
def InHierarchy (catalog : Catalog) (s : Structure) : Structure → Prop :=
  ReflTransGen (fun t parent => catalog.Inherits t parent ∧ parent.name ≠ s.name) s

variable {catalog : Catalog} {s t parent : Structure}

theorem referred?_eq (catalog : Catalog) (type : TypeExpr) :
    catalog.referred? type = type.referenceName?.bind catalog.structure? := by
  cases type <;> rfl

theorem parents_eq (catalog : Catalog) (s : Structure) :
    catalog.parents s = s.parents.filterMap catalog.structure? := by
  rw [parents, Structure.parents, List.filterMap_filterMap]
  congr 1
  funext type
  exact catalog.referred?_eq type

theorem inherits_iff :
    catalog.Inherits s parent ↔
      parent.name ∈ s.parents ∧ catalog.structure? parent.name = some parent := by
  rw [Inherits, Structure.mem_parents_iff]

/-- The parents in the catalog are what is one step up. -/
theorem mem_parents_iff : parent ∈ catalog.parents s ↔ catalog.Inherits s parent := by
  rw [inherits_iff, parents_eq, List.mem_filterMap]
  constructor
  · rintro ⟨name, hname, hfound⟩
    obtain rfl : parent.name = name := name_of_findName? hfound
    exact ⟨hname, hfound⟩
  · rintro ⟨hname, hfound⟩
    exact ⟨parent.name, hname, hfound⟩

/-- Everything in a hierarchy but its start stands in the catalog, under another name. -/
theorem InHierarchy.eq_or_structure? (h : catalog.InHierarchy s t) :
    t = s ∨ t.name ≠ s.name ∧ catalog.structure? t.name = some t := by
  rcases ReflTransGen.cases_tail h with heq | ⟨_, _, hstep, hname⟩
  · exact Or.inl heq
  · exact Or.inr ⟨hname, (inherits_iff.mp hstep).2⟩

/-! ## Nothing else is carried -/

/-- The task is about the hierarchy of a structure. -/
def TaskWithin (catalog : Catalog) (s : Structure) : Task → Prop
  | .enter name => ∀ t, catalog.structure? name = some t → name ≠ s.name → catalog.InHierarchy s t
  | .add properties => ∃ t, catalog.InHierarchy s t ∧ properties = t.properties

/-- The tasks of a structure in a hierarchy are about that hierarchy. -/
theorem InHierarchy.taskWithin (h : catalog.InHierarchy s t) :
    ∀ task ∈ tasksOf t, catalog.TaskWithin s task := by
  intro task htask
  rcases List.mem_append.mp htask with henter | hadd
  · obtain ⟨name, hname, rfl⟩ := List.mem_map.mp henter
    intro parent hfound hne
    obtain rfl : parent.name = name := name_of_findName? hfound
    exact h.tail ⟨inherits_iff.mpr ⟨hname, hfound⟩, hne⟩
  · rw [List.mem_singleton.mp hadd]
    exact ⟨t, h, rfl⟩

/-- What is still in the pool is what the catalog has under other names than that of the start. -/
def PoolWithin (catalog : Catalog) (s : Structure) (pool : List Structure) : Prop :=
  ∀ name t, findName? Structure.name pool name = some t →
    catalog.structure? name = some t ∧ name ≠ s.name

/-- Entering a structure leaves the rest of the pool as it was. -/
theorem PoolWithin.remove {pool : List Structure} (h : catalog.PoolWithin s pool)
    (name : String) : catalog.PoolWithin s (removeName Structure.name pool name) := by
  intro other t hfound
  rw [findName?_removeName] at hfound
  split at hfound
  next => cases hfound
  next => exact h other t hfound

/-- A walk starts with all of the catalog but the name of its start. -/
theorem poolWithin_start (catalog : Catalog) (s : Structure) :
    catalog.PoolWithin s (removeName Structure.name catalog.structures s.name) := by
  intro name t hfound
  rw [findName?_removeName] at hfound
  split at hfound
  next => cases hfound
  next hne => exact ⟨hfound, hne⟩

/-- What a walk finds under a name is the first property of that name in a structure of the
hierarchy. -/
theorem exists_of_findName?_walk {pool : List Structure} {found : List Property}
    {tasks : List Task} (hpool : catalog.PoolWithin s pool)
    (hfound : ∀ name property, findName? Property.name found name = some property →
      ∃ t, catalog.InHierarchy s t ∧ findName? Property.name t.properties name = some property)
    (htasks : ∀ task ∈ tasks, catalog.TaskWithin s task) :
    ∀ name property, findName? Property.name (walk pool found tasks) name = some property →
      ∃ t, catalog.InHierarchy s t ∧ findName? Property.name t.properties name = some property := by
  fun_induction walk pool found tasks with
  | case1 pool found => exact hfound
  | case2 pool found properties tasks ih =>
      refine ih hpool ?_ fun task htask => htasks task (List.mem_cons_of_mem _ htask)
      intro name property hname
      rw [findName?_addAllFirst, Option.or_eq_some_iff] at hname
      rcases hname with hold | ⟨_, hnew⟩
      · exact hfound name property hold
      · obtain ⟨t, ht, rfl⟩ := htasks _ List.mem_cons_self
        exact ⟨t, ht, hnew⟩
  | case3 pool found name tasks hnone ih =>
      exact ih hpool hfound fun task htask => htasks task (List.mem_cons_of_mem _ htask)
  | case4 pool found name tasks t hentered hshort ih =>
      refine ih (hpool.remove name) hfound ?_
      intro task htask
      rcases List.mem_append.mp htask with htask | htask
      · obtain ⟨hcatalog, hne⟩ := hpool name t hentered
        have ht : catalog.InHierarchy s t := htasks _ List.mem_cons_self t hcatalog hne
        exact ht.taskWithin task htask
      · exact htasks task (List.mem_cons_of_mem _ htask)

/-! ## Nothing is missed -/

/-- Of the structures in the hierarchy, those that have left the pool have their properties found or
waiting, and their parents have left the pool or are waiting. -/
def Settled (catalog : Catalog) (s : Structure) (pool : List Structure) (found : List Property)
    (tasks : List Task) : Prop :=
  ∀ t, catalog.InHierarchy s t → findName? Structure.name pool t.name = none →
    (∀ name ∈ t.properties.map Property.name,
      name ∈ found.map Property.name ∨ .add t.properties ∈ tasks) ∧
    ∀ parent, catalog.Inherits t parent → parent.name ≠ s.name →
      findName? Structure.name pool parent.name = none ∨ .enter parent.name ∈ tasks

variable {pool : List Structure} {found : List Property} {tasks : List Task}

/-- When nothing is left to do, every name of the hierarchy is found. -/
theorem Settled.mem_found (h : catalog.Settled s pool found [])
    (hs : findName? Structure.name pool s.name = none) (ht : catalog.InHierarchy s t) :
    ∀ name ∈ t.properties.map Property.name, name ∈ found.map Property.name := by
  have hleft : findName? Structure.name pool t.name = none := by
    induction ht with
    | refl => exact hs
    | tail hpath hstep ih =>
        exact ((h _ hpath ih).2 _ hstep.1 hstep.2).resolve_right List.not_mem_nil
  intro name hname
  exact ((h t ht hleft).1 name hname).resolve_right List.not_mem_nil

/-- Adding properties turns those that were waiting into found ones. -/
theorem Settled.add {properties : List Property}
    (h : catalog.Settled s pool found (.add properties :: tasks)) :
    catalog.Settled s pool (addAllFirst Property.name found properties) tasks := by
  intro t ht hleft
  obtain ⟨hnames, hparents⟩ := h t ht hleft
  constructor
  · intro name hname
    rw [mem_names_addAllFirst]
    rcases hnames name hname with hfound | hwaiting
    · exact Or.inl (Or.inl hfound)
    · rcases List.mem_cons.mp hwaiting with hnow | hlater
      · cases hnow
        exact Or.inl (Or.inr hname)
      · exact Or.inr hlater
  · intro parent hparent hne
    refine (hparents parent hparent hne).imp_right fun hwaiting => ?_
    exact (List.mem_cons.mp hwaiting).resolve_left nofun

/-- A structure that has left the pool before may be passed over. -/
theorem Settled.skip {name : String} (h : catalog.Settled s pool found (.enter name :: tasks))
    (hnone : findName? Structure.name pool name = none) : catalog.Settled s pool found tasks := by
  intro t ht hleft
  obtain ⟨hnames, hparents⟩ := h t ht hleft
  constructor
  · intro property hproperty
    refine (hnames property hproperty).imp_right fun hwaiting => ?_
    exact (List.mem_cons.mp hwaiting).resolve_left nofun
  · intro parent hparent hne
    rcases hparents parent hparent hne with hgone | hwaiting
    · exact Or.inl hgone
    · rcases List.mem_cons.mp hwaiting with hnow | hlater
      · cases hnow
        exact Or.inl hnone
      · exact Or.inr hlater

/-- Entering a structure takes it from the pool and makes its parents and properties wait. -/
theorem Settled.enter {name : String} {u : Structure}
    (h : catalog.Settled s pool found (.enter name :: tasks)) (hpool : catalog.PoolWithin s pool)
    (hentered : findName? Structure.name pool name = some u) :
    catalog.Settled s (removeName Structure.name pool name) found
      (tasksOf u ++ tasks) := by
  obtain ⟨hcatalog, hne⟩ := hpool name u hentered
  intro t ht hleft
  rw [findName?_removeName] at hleft
  by_cases hname : t.name = name
  · -- the hierarchy has one structure of this name, the one just entered
    obtain rfl : t = u := by
      rcases ht.eq_or_structure? with rfl | ⟨_, hfound⟩
      · exact absurd hname.symm hne
      · rw [hname, hcatalog] at hfound
        exact (Option.some.inj hfound).symm
    constructor
    · intro property _
      exact Or.inr (List.mem_append_left _ (List.mem_append_right _ List.mem_cons_self))
    · intro parent hparent _
      refine Or.inr (List.mem_append_left _ (List.mem_append_left _ ?_))
      exact List.mem_map_of_mem (inherits_iff.mp hparent).1
  · rw [if_neg hname] at hleft
    obtain ⟨hnames, hparents⟩ := h t ht hleft
    constructor
    · intro property hproperty
      refine (hnames property hproperty).imp_right fun hwaiting => ?_
      exact List.mem_append_right _ ((List.mem_cons.mp hwaiting).resolve_left nofun)
    · intro parent hparent hparentName
      rw [findName?_removeName]
      by_cases hnow : parent.name = name
      · exact Or.inl (if_pos hnow)
      · rw [if_neg hnow]
        refine (hparents parent hparent hparentName).imp_right fun hwaiting => ?_
        refine List.mem_append_right _ ((List.mem_cons.mp hwaiting).resolve_left ?_)
        exact fun heq => hnow (Task.enter.inj heq)

/-- A walk that starts settled finds every name of the hierarchy. -/
theorem mem_names_walk (hpool : catalog.PoolWithin s pool)
    (hs : findName? Structure.name pool s.name = none)
    (hsettled : catalog.Settled s pool found tasks) (ht : catalog.InHierarchy s t) :
    ∀ name ∈ t.properties.map Property.name,
      name ∈ (walk pool found tasks).map Property.name := by
  fun_induction walk pool found tasks with
  | case1 pool found => exact hsettled.mem_found hs ht
  | case2 pool found properties tasks ih => exact ih hpool hs hsettled.add
  | case3 pool found name tasks hnone ih => exact ih hpool hs (hsettled.skip hnone)
  | case4 pool found name tasks u hentered hshort ih =>
      refine ih (hpool.remove name) ?_ (hsettled.enter hpool hentered)
      rw [findName?_removeName, hs, ite_self]

/-- At the start only the structure itself is out of the pool, and all it has is waiting. -/
theorem settled_start (catalog : Catalog) (s : Structure) :
    catalog.Settled s (removeName Structure.name catalog.structures s.name) []
      (tasksOf s) := by
  intro t ht hleft
  obtain rfl : t = s := by
    rcases ht.eq_or_structure? with rfl | ⟨hne, hfound⟩
    · rfl
    · rw [findName?_removeName_of_ne hne] at hleft
      rw [structure?, hleft] at hfound
      cases hfound
  constructor
  · intro name _
    exact Or.inr (List.mem_append_right _ List.mem_cons_self)
  · intro parent hparent _
    exact Or.inr (List.mem_append_left _ (List.mem_map_of_mem (inherits_iff.mp hparent).1))

/-! ## Carried properties -/

/-- Every property carried is the first of its name somewhere in the hierarchy. -/
theorem exists_of_mem_flatten {property : Property} (h : property ∈ catalog.flatten s) :
    ∃ t, catalog.InHierarchy s t ∧
      findName? Property.name t.properties property.name = some property := by
  have hself : catalog.InHierarchy s s := ReflTransGen.refl
  refine exists_of_findName?_walk (poolWithin_start catalog s) ?_ hself.taskWithin property.name
    property (findName?_of_mem (nodup_flatten catalog s) h)
  intro name property hname
  cases hname

/-- The names carried are those in the hierarchy. -/
theorem mem_names_flatten_iff {name : String} :
    name ∈ (catalog.flatten s).map Property.name ↔
      ∃ t, catalog.InHierarchy s t ∧ name ∈ t.properties.map Property.name := by
  constructor
  · intro hname
    obtain ⟨property, hproperty, rfl⟩ := List.mem_map.mp hname
    obtain ⟨t, ht, hfound⟩ := exists_of_mem_flatten hproperty
    exact ⟨t, ht, List.mem_map_of_mem (mem_of_findName? hfound)⟩
  · rintro ⟨t, ht, hname⟩
    have hs : findName? Structure.name
        (removeName Structure.name catalog.structures s.name) s.name = none := by
      rw [findName?_removeName, if_pos rfl]
    exact mem_names_walk (poolWithin_start catalog s) hs (settled_start catalog s) ht name hname

/-- From a structure of the catalog, a way up that comes back to its name comes back to the
structure, so its hierarchy is all that can be reached. -/
theorem inHierarchy_iff_of_structure? (hs : catalog.structure? s.name = some s) :
    catalog.InHierarchy s t ↔ ReflTransGen catalog.Inherits s t := by
  constructor
  · intro h
    induction h with
    | refl => exact ReflTransGen.refl
    | tail _ hstep ih => exact ih.tail hstep.1
  · intro h
    induction h with
    | refl => exact ReflTransGen.refl
    | @tail _ parent _ hstep ih =>
        by_cases hname : parent.name = s.name
        · have hfound := (inherits_iff.mp hstep).2
          rw [hname, hs, Option.some.injEq] at hfound
          rw [← hfound]
          exact ReflTransGen.refl
        · exact ReflTransGen.tail ih ⟨hstep, hname⟩

theorem structure?_of_reaches (hs : catalog.structure? s.name = some s)
    (h : ReflTransGen catalog.Inherits s t) : catalog.structure? t.name = some t := by
  rcases ReflTransGen.cases_tail h with rfl | ⟨_, _, hstep⟩
  · exact hs
  · exact (inherits_iff.mp hstep).2

/-- A structure of the catalog carries every name that anything above it carries. -/
theorem names_flatten_subset (hs : catalog.structure? s.name = some s)
    (h : ReflTransGen catalog.Inherits s t) :
    (catalog.flatten t).map Property.name ⊆ (catalog.flatten s).map Property.name := by
  intro name hname
  obtain ⟨u, hu, hown⟩ := mem_names_flatten_iff.mp hname
  have hpath := (inHierarchy_iff_of_structure? (structure?_of_reaches hs h)).mp hu
  exact mem_names_flatten_iff.mpr
    ⟨u, (inHierarchy_iff_of_structure? hs).mpr (h.trans hpath), hown⟩

theorem structure?_of_mem {model : Model} (h : s ∈ (ofModel model).structures) :
    (ofModel model).structure? s.name = some s :=
  findName?_of_mem (nodup_structures model) h

/-- Whatever cycles there are, and whether or not the structure is the first of its name: the names
a structure carries are distinct, they are those of the properties in its hierarchy, and each
property it carries is the first of its name in some structure of the hierarchy. So a structure of
the catalog carries every name that anything above it carries, and structures on one cycle carry the
same names. -/
theorem flatten_covers_hierarchy (model : Model) :
    (∀ s, (((ofModel model).flatten s).map Property.name).Nodup ∧
      (∀ name, name ∈ ((ofModel model).flatten s).map Property.name ↔
        ∃ t, (ofModel model).InHierarchy s t ∧ name ∈ t.properties.map Property.name) ∧
      ∀ property ∈ (ofModel model).flatten s, ∃ t, (ofModel model).InHierarchy s t ∧
        findName? Property.name t.properties property.name = some property) ∧
    (∀ s ∈ (ofModel model).structures, ∀ t, ReflTransGen (ofModel model).Inherits s t →
      ((ofModel model).flatten t).map Property.name ⊆
        ((ofModel model).flatten s).map Property.name) ∧
    ∀ s ∈ (ofModel model).structures, ∀ t, ReflTransGen (ofModel model).Inherits s t →
      ReflTransGen (ofModel model).Inherits t s → ∀ name,
        name ∈ ((ofModel model).flatten s).map Property.name ↔
          name ∈ ((ofModel model).flatten t).map Property.name := by
  refine ⟨?_, ?_, ?_⟩
  · intro s
    exact ⟨nodup_flatten _ s, fun _ => mem_names_flatten_iff,
      fun _ hproperty => exists_of_mem_flatten hproperty⟩
  · intro s hs t hpath
    exact names_flatten_subset (structure?_of_mem hs) hpath
  · intro s hs t hpath hback name
    have ht := structure?_of_reaches (structure?_of_mem hs) hpath
    exact ⟨fun hname => names_flatten_subset ht hback hname,
      fun hname => names_flatten_subset (structure?_of_mem hs) hpath hname⟩

/-- A structure with one property that extends another structure. -/
def extending (name property parent : String) : Structure where
  name := name
  properties := [{ name := property, type := .base "string" }]
  extended := [.reference parent]

/-- A structure that mixes in one that extends it, and another one. -/
def mixing : Structure where
  name := "Right"
  properties := [{ name := "b", type := .base "string" }]
  mixins := [.reference "Left", .reference "Shared"]

/-- Two structures on a cycle, and one that is mixed in. -/
def loopOfTwo : Model where
  version := "1"
  structures :=
    [extending "Left" "a" "Right", mixing,
     { name := "Shared", properties := [{ name := "c", type := .base "string" }] }]

/-- On a cycle of two structures, the second carries the names of the first, which come through its
mixins as well. -/
theorem flatten_covers_hierarchy_loopOfTwo :
    ((ofModel loopOfTwo).flatten (extending "Left" "a" "Right")).map Property.name =
        ["c", "b", "a"] ∧
      ∀ name, name ∈ ((ofModel loopOfTwo).flatten mixing).map Property.name ↔
        name ∈ ["c", "b", "a"] := by
  have hcarried : ((ofModel loopOfTwo).flatten (extending "Left" "a" "Right")).map Property.name =
      ["c", "b", "a"] := by
    cbv
  have hmem : mixing ∈ (ofModel loopOfTwo).structures := List.mem_cons_of_mem _ List.mem_cons_self
  have hup : (ofModel loopOfTwo).Inherits mixing (extending "Left" "a" "Right") :=
    ⟨.inr List.mem_cons_self, rfl⟩
  have hback : (ofModel loopOfTwo).Inherits (extending "Left" "a" "Right") mixing :=
    ⟨.inl List.mem_cons_self, rfl⟩
  have hcycle := (flatten_covers_hierarchy loopOfTwo).2.2 _ hmem _ (.single hup) (.single hback)
  exact ⟨hcarried, fun name => hcarried ▸ hcycle name⟩

end Catalog

end ProtocolCodec
