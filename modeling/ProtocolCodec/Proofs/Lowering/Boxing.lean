import Mathlib.Logic.Relation
import ProtocolCodec.Lowering.Containment
import ProtocolCodec.Proofs.FirstWins

/-!
# Boxing is exact

A field needs a box when the structure it holds leads back to its owner through structures held by
value. The search for the owner visits each structure once; it is complete because a structure that
is done has only parts that are done or still waiting. So no cycle is left among the fields that are
not boxed.
-/

namespace ProtocolCodec.Context

open Relation

variable {context : Context}

/-- A structure holds another directly inside itself: it carries a property whose value is that
structure. -/
def Contains (context : Context) (s part : Structure) : Prop :=
  ∃ property ∈ context.catalog.flatten s, context.byValue? property.type = some part

/-- A structure holds another in a field that is not boxed. -/
def ContainsUnboxed (context : Context) (s part : Structure) : Prop :=
  ∃ property ∈ context.catalog.flatten s, context.byValue? property.type = some part ∧
    context.needsBox (Naming.typeName s.name) property.type = false

theorem mem_parts_iff {s part : Structure} : part ∈ context.parts s ↔ context.Contains s part := by
  simp [parts, Contains, List.mem_filterMap]

theorem mem_of_structureOfName? {aliases : List TypeAlias} {name : String} {s : Structure}
    (h : context.structureOfName? aliases name = some s) : s ∈ context.catalog.structures := by
  fun_induction structureOfName? context aliases name with
  | case1 aliases name hskip => cases h
  | case2 aliases name hskip found hfound =>
      cases h
      exact mem_of_findName? hfound
  | case3 aliases name hskip hfound hnone => cases h
  | case4 aliases name hskip hfound a halias hname => cases h
  | case5 aliases name hskip hfound a halias next hname hshort ih => exact ih h

/-- What a type holds by value stands in the catalog. -/
theorem mem_of_byValue? {type : TypeExpr} {s : Structure} (h : context.byValue? type = some s) :
    s ∈ context.catalog.structures := by
  obtain ⟨name, _, hname⟩ := Option.bind_eq_some_iff.mp h
  exact mem_of_structureOfName? hname

theorem Contains.mem {s part : Structure} (h : context.Contains s part) :
    part ∈ context.catalog.structures := by
  obtain ⟨property, _, hpart⟩ := h
  exact mem_of_byValue? hpart

/-! ## The search for the owner -/

/-- A search that succeeds has found a way to the owner. -/
theorem reaches_of_reachesFrom {owner : String} {pool frontier : List Structure}
    (h : context.reachesFrom owner pool frontier = true) :
    ∃ s ∈ frontier, ∃ t, ReflTransGen context.Contains s t ∧ Naming.typeName t.name = owner := by
  fun_induction reachesFrom context owner pool frontier with
  | case1 pool => cases h
  | case2 pool s frontier howner => exact ⟨s, List.mem_cons_self, s, .refl, howner⟩
  | case3 pool s frontier howner hnone ih =>
      obtain ⟨first, hfirst, t, hpath, ht⟩ := ih h
      exact ⟨first, List.mem_cons_of_mem s hfirst, t, hpath, ht⟩
  | case4 pool s frontier howner found hfound hshort ih =>
      obtain ⟨first, hfirst, t, hpath, ht⟩ := ih h
      rcases List.mem_append.mp hfirst with hpart | hfirst
      · exact ⟨s, List.mem_cons_self, t, .head (mem_parts_iff.mp hpart) hpath, ht⟩
      · exact ⟨first, List.mem_cons_of_mem s hfirst, t, hpath, ht⟩

/-- The structures taken from the pool are not the owner, and their parts are taken or waiting. -/
def Settled (context : Context) (owner : String) (pool frontier : List Structure) : Prop :=
  ∀ s ∈ context.catalog.structures, s ∉ pool → Naming.typeName s.name ≠ owner ∧
    ∀ part, context.Contains s part → part ∉ pool ∨ part ∈ frontier

/-- With nothing waiting, what has been taken is closed under containment. -/
theorem Settled.not_reaches {owner : String} {pool : List Structure}
    (h : context.Settled owner pool []) {s t : Structure} (hs : s ∈ context.catalog.structures)
    (hpool : s ∉ pool) (hpath : ReflTransGen context.Contains s t) :
    Naming.typeName t.name ≠ owner := by
  have htaken : t ∈ context.catalog.structures ∧ t ∉ pool := by
    induction hpath with
    | refl => exact ⟨hs, hpool⟩
    | tail _ hstep ih =>
        refine ⟨hstep.mem, ?_⟩
        exact ((h _ ih.1 ih.2).2 _ hstep).resolve_right (List.not_mem_nil)
  exact (h t htaken.1 htaken.2).1

/-- Taking a structure from the pool makes its parts wait. -/
theorem Settled.take {owner : String} {pool frontier : List Structure} {s : Structure}
    (h : context.Settled owner pool (s :: frontier))
    (hnodup : (context.catalog.structures.map Structure.name).Nodup)
    (hs : s ∈ context.catalog.structures) (howner : Naming.typeName s.name ≠ owner) :
    context.Settled owner (removeName Structure.name pool s.name)
      (context.parts s ++ frontier) := by
  intro other hother htaken
  by_cases hname : other.name = s.name
  · -- the catalog has one structure of each name, so this is the one just taken
    obtain rfl : other = s := by
      have hfound := findName?_of_mem hnodup hother
      rw [hname, findName?_of_mem hnodup hs, Option.some.injEq] at hfound
      exact hfound.symm
    refine ⟨howner, ?_⟩
    intro part hpart
    exact Or.inr (List.mem_append_left _ (mem_parts_iff.mpr hpart))
  · have hpool : other ∉ pool := fun hmem => htaken (mem_removeName.mpr ⟨hmem, hname⟩)
    obtain ⟨hne, hparts⟩ := h other hother hpool
    refine ⟨hne, ?_⟩
    intro part hpart
    rcases hparts part hpart with hdone | hwaiting
    · exact Or.inl fun hmem => hdone (mem_removeName.mp hmem).1
    · rcases List.mem_cons.mp hwaiting with rfl | hwaiting
      · exact Or.inl fun hmem => (mem_removeName.mp hmem).2 rfl
      · exact Or.inr (List.mem_append_right _ hwaiting)

/-- A structure that is taken already need not wait. -/
theorem Settled.skip {owner : String} {pool frontier : List Structure} {s : Structure}
    (h : context.Settled owner pool (s :: frontier)) (hs : s ∉ pool) :
    context.Settled owner pool frontier := by
  intro other hother htaken
  obtain ⟨hne, hparts⟩ := h other hother htaken
  refine ⟨hne, ?_⟩
  intro part hpart
  rcases hparts part hpart with hdone | hwaiting
  · exact Or.inl hdone
  · rcases List.mem_cons.mp hwaiting with rfl | hwaiting
    · exact Or.inl hs
    · exact Or.inr hwaiting

/-- A search that fails has seen everything that can be reached. -/
theorem not_reaches_of_reachesFrom {owner : String} {pool frontier : List Structure}
    (hnodup : (context.catalog.structures.map Structure.name).Nodup)
    (hfrontier : ∀ s ∈ frontier, s ∈ context.catalog.structures)
    (hsettled : context.Settled owner pool frontier)
    (h : context.reachesFrom owner pool frontier = false) :
    ∀ s ∈ context.catalog.structures, s ∉ pool ∨ s ∈ frontier →
      ∀ t, ReflTransGen context.Contains s t → Naming.typeName t.name ≠ owner := by
  fun_induction reachesFrom context owner pool frontier with
  | case1 pool =>
      intro s hs hwhere t hpath
      exact hsettled.not_reaches hs (hwhere.resolve_right List.not_mem_nil) hpath
  | case2 pool s frontier howner => cases h
  | case3 pool s frontier howner hnone ih =>
      have hpool : s ∉ pool := by
        intro hmem
        exact findName?_eq_none_iff.mp hnone (List.mem_map_of_mem hmem)
      have hrest := ih (fun t ht => hfrontier t (List.mem_cons_of_mem s ht))
        (hsettled.skip hpool) h
      intro other hother hwhere
      rcases hwhere with hdone | hwaiting
      · exact hrest other hother (Or.inl hdone)
      · rcases List.mem_cons.mp hwaiting with rfl | hwaiting
        · exact hrest other hother (Or.inl hpool)
        · exact hrest other hother (Or.inr hwaiting)
  | case4 pool s frontier howner found hfound hshort ih =>
      have hs := hfrontier s List.mem_cons_self
      have hwaiting : ∀ t ∈ context.parts s ++ frontier, t ∈ context.catalog.structures := by
        intro t ht
        rcases List.mem_append.mp ht with hpart | ht
        · exact (mem_parts_iff.mp hpart).mem
        · exact hfrontier t (List.mem_cons_of_mem s ht)
      have hrest := ih hwaiting (hsettled.take hnodup hs howner) h
      intro other hother hwhere
      rcases hwhere with hdone | hwaiting
      · exact hrest other hother (Or.inl fun hmem => hdone (mem_removeName.mp hmem).1)
      · rcases List.mem_cons.mp hwaiting with rfl | hwaiting
        · exact hrest other hother (Or.inl fun hmem => (mem_removeName.mp hmem).2 rfl)
        · exact hrest other hother (Or.inr (List.mem_append_right _ hwaiting))

/-- A type needs a box just when what it holds by value reaches the owner. -/
theorem needsBox_iff (model : Model) (settings : Settings) (owner : String) (type : TypeExpr) :
    (ofModel model settings).needsBox owner type = true ↔
      ∃ s, (ofModel model settings).byValue? type = some s ∧
        ∃ t, ReflTransGen (ofModel model settings).Contains s t ∧
          Naming.typeName t.name = owner := by
  unfold needsBox
  cases hvalue : (ofModel model settings).byValue? type with
  | none => simp
  | some s =>
      simp only [Option.some.injEq, exists_eq_left']
      constructor
      · intro h
        obtain ⟨first, hfirst, hreach⟩ := reaches_of_reachesFrom h
        rw [List.mem_singleton.mp hfirst] at hreach
        exact hreach
      · rintro ⟨t, hpath, ht⟩
        by_contra hfalse
        -- at the start nothing is taken, so the invariant holds of nothing
        have hs := mem_of_byValue? hvalue
        have hstart : (ofModel model settings).Settled owner
            (ofModel model settings).catalog.structures [s] :=
          fun other hother hnot => absurd hother hnot
        refine not_reaches_of_reachesFrom (Catalog.nodup_structures model) ?_ hstart
          (Bool.not_eq_true _ ▸ hfalse) s hs (Or.inr List.mem_cons_self) t hpath ht
        intro other hother
        exact List.mem_singleton.mp hother ▸ hs

theorem ContainsUnboxed.contains {s part : Structure} (h : context.ContainsUnboxed s part) :
    context.Contains s part := by
  obtain ⟨property, hproperty, hpart, _⟩ := h
  exact ⟨property, hproperty, hpart⟩

/-- A field is boxed just when what it holds by value leads back to its owner, through any number of
structures held by value. So the fields that are not boxed never lead from a structure back to
itself. -/
theorem needsBox_exact (model : Model) (settings : Settings) :
    (∀ (owner : String) (type : TypeExpr),
      (ofModel model settings).needsBox owner type = true ↔
        ∃ s, (ofModel model settings).byValue? type = some s ∧
          ∃ t, ReflTransGen (ofModel model settings).Contains s t ∧
            Naming.typeName t.name = owner) ∧
    ∀ s, ¬ TransGen (ofModel model settings).ContainsUnboxed s s := by
  refine ⟨needsBox_iff model settings, ?_⟩
  intro s hcycle
  -- the first edge of a cycle leads back to its own start, so its field is boxed
  obtain ⟨part, ⟨property, _, hpart, hunboxed⟩, hback⟩ := TransGen.head'_iff.mp hcycle
  have hpath : ReflTransGen (ofModel model settings).Contains part s :=
    hback.lift id fun _ _ hedge => hedge.contains
  have hboxed : (ofModel model settings).needsBox (Naming.typeName s.name) property.type = true :=
    (needsBox_iff model settings _ _).mpr ⟨part, hpart, s, hpath, rfl⟩
  rw [hunboxed] at hboxed
  cases hboxed

end ProtocolCodec.Context
