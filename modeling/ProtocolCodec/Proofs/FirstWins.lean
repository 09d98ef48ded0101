import Mathlib.Data.List.Find
import Mathlib.Data.List.Induction
import Mathlib.Data.List.Nodup
import ProtocolCodec.Catalog

/-!
# Laws of keeping the first of each name

Keeping first entries makes names distinct, loses no name, and does not change what a look-up finds.
So a catalog answers a look-up exactly as the list of declarations it was made from.
-/

namespace ProtocolCodec

variable {α : Type} {name : α → String} {entries : List α} {wanted : String} {entry : α}

/-! ## Looking up -/

theorem hasName_iff : hasName name entries wanted = true ↔ wanted ∈ entries.map name := by
  simp [hasName, List.any_eq_true]

theorem mem_of_findName? (h : findName? name entries wanted = some entry) : entry ∈ entries :=
  List.mem_of_find?_eq_some h

theorem name_of_findName? (h : findName? name entries wanted = some entry) :
    name entry = wanted := by
  simpa using List.find?_some h

theorem findName?_eq_none_iff :
    findName? name entries wanted = none ↔ wanted ∉ entries.map name := by
  simp [findName?, List.find?_eq_none]

theorem findName?_isSome_iff :
    (findName? name entries wanted).isSome = true ↔ wanted ∈ entries.map name := by
  rw [Option.isSome_iff_ne_none, ne_eq, findName?_eq_none_iff, not_not]

theorem findName?_append (more : List α) :
    findName? name (entries ++ more) wanted =
      (findName? name entries wanted).or (findName? name more wanted) :=
  List.find?_append

theorem findName?_map {β : Type} (f : β → α) (sources : List β) :
    findName? name (sources.map f) wanted = (findName? (name ∘ f) sources wanted).map f :=
  List.find?_map

/-- A look-up after a selection by name. -/
theorem findName?_filter (p : String → Bool) :
    findName? name (entries.filter fun entry => p (name entry)) wanted =
      if p wanted then findName? name entries wanted else none := by
  unfold findName?
  rw [List.find?_filter]
  split
  next hwanted =>
    apply List.find?_congr
    intro entry _
    by_cases hname : name entry = wanted
    · simp [hname, hwanted]
    · simp [hname]
  next hwanted =>
    rw [List.find?_eq_none]
    intro entry _
    by_cases hname : name entry = wanted
    · simp [hname, hwanted]
    · simp [hname]

/-- Among distinct names an entry is found under its own. -/
theorem findName?_of_mem (hnodup : (entries.map name).Nodup) (hmem : entry ∈ entries) :
    findName? name entries (name entry) = some entry := by
  induction entries with
  | nil => simp at hmem
  | cons first rest ih =>
      obtain ⟨hfirst, hrest⟩ := List.nodup_cons.mp hnodup
      rcases List.mem_cons.mp hmem with rfl | hmem
      · simp [findName?]
      · have hne : name first ≠ name entry := by
          intro heq
          exact hfirst (heq ▸ List.mem_map_of_mem hmem)
        simpa [findName?, hne] using ih hrest hmem

/-- A look-up sees through a partial map that keeps names, provided that they are distinct. -/
theorem findName?_filterMap {β : Type} {other : β → String} {f : α → Option β}
    (hname : ∀ a b, f a = some b → other b = name a) (hnodup : (entries.map name).Nodup) :
    findName? other (entries.filterMap f) wanted = (findName? name entries wanted).bind f := by
  induction entries with
  | nil => rfl
  | cons first rest ih =>
      obtain ⟨hfirst, hrest⟩ := List.nodup_cons.mp hnodup
      have ih := ih hrest
      by_cases hwanted : name first = wanted
      · -- no later entry has the name, whether or not the first survives the map
        have hnone : findName? name rest wanted = none :=
          findName?_eq_none_iff.mpr (hwanted ▸ hfirst)
        rw [hnone, Option.bind_none] at ih
        cases hf : f first with
        | none => simpa [findName?, hwanted, hf] using ih
        | some b => simp [findName?, hwanted, hf, hname first b hf]
      · cases hf : f first with
        | none => simpa [findName?, hwanted, hf] using ih
        | some b => simpa [findName?, hwanted, hf, hname first b hf] using ih

/-! ## Removing -/

theorem mem_removeName {unwanted : String} :
    entry ∈ removeName name entries unwanted ↔ entry ∈ entries ∧ name entry ≠ unwanted := by
  simp [removeName]

/-- Removing a name hides the entries of that name and no others. -/
theorem findName?_removeName (unwanted : String) :
    findName? name (removeName name entries unwanted) wanted =
      if wanted = unwanted then none else findName? name entries wanted := by
  rw [removeName, findName?_filter fun other => other != unwanted]
  by_cases h : wanted = unwanted
  · simp [h]
  · simp [h]

theorem findName?_removeName_of_ne {unwanted : String} (h : wanted ≠ unwanted) :
    findName? name (removeName name entries unwanted) wanted = findName? name entries wanted := by
  rw [findName?_removeName, if_neg h]

/-! ## Keeping first entries -/

theorem nodup_addFirst (h : (entries.map name).Nodup) (entry : α) :
    ((addFirst name entries entry).map name).Nodup := by
  unfold addFirst
  split
  next => exact h
  next hnew =>
    rw [hasName_iff] at hnew
    rw [List.map_append, List.nodup_append]
    refine ⟨h, by simp, ?_⟩
    intro other hother last hlast heq
    simp only [List.map_cons, List.map_nil, List.mem_singleton] at hlast
    exact hnew (hlast ▸ heq ▸ hother)

theorem nodup_addAllFirst (h : (entries.map name).Nodup) (more : List α) :
    ((addAllFirst name entries more).map name).Nodup := by
  induction more generalizing entries with
  | nil => exact h
  | cons first rest ih => exact ih (nodup_addFirst h first)

/-- The entries that are kept have distinct names. -/
theorem nodup_keepFirst (entries : List α) : ((keepFirst name entries).map name).Nodup :=
  nodup_addAllFirst (by simp) entries

theorem findName?_addFirst (entry : α) :
    findName? name (addFirst name entries entry) wanted =
      (findName? name entries wanted).or (findName? name [entry] wanted) := by
  unfold addFirst
  split
  next hold =>
    rw [hasName_iff] at hold
    by_cases hentry : name entry = wanted
    · rw [hentry, ← findName?_isSome_iff, Option.isSome_iff_exists] at hold
      obtain ⟨found, hfound⟩ := hold
      simp [hfound]
    · simp [findName?, hentry]
  next => exact findName?_append [entry]

/-- Entries that are there come before those that are added. -/
theorem findName?_addAllFirst (more : List α) :
    findName? name (addAllFirst name entries more) wanted =
      (findName? name entries wanted).or (findName? name more wanted) := by
  induction more generalizing entries with
  | nil => simp [addAllFirst, findName?]
  | cons first rest ih =>
      change findName? name (addAllFirst name (addFirst name entries first) rest) wanted = _
      rw [ih, findName?_addFirst, Option.or_assoc, ← findName?_append, List.singleton_append]

/-- Adding entries adds all their names. -/
theorem mem_names_addAllFirst (more : List α) :
    wanted ∈ (addAllFirst name entries more).map name ↔
      wanted ∈ entries.map name ∨ wanted ∈ more.map name := by
  simp only [← findName?_isSome_iff, findName?_addAllFirst, Option.isSome_or, Bool.or_eq_true]

/-- Keeping the first of each name changes no look-up. -/
@[simp]
theorem findName?_keepFirst (entries : List α) :
    findName? name (keepFirst name entries) wanted = findName? name entries wanted := by
  rw [keepFirst, findName?_addAllFirst]
  rfl

theorem mem_keepFirst_id {names : List String} : wanted ∈ keepFirst id names ↔ wanted ∈ names := by
  have hnames : wanted ∈ (addAllFirst id [] names).map id ↔
      wanted ∈ [].map id ∨ wanted ∈ names.map id :=
    mem_names_addAllFirst names
  simpa [keepFirst] using hnames

/-! ### Adding in several rounds -/

theorem addAllFirst_append (first second : List α) :
    addAllFirst name entries (first ++ second) =
      addAllFirst name (addAllFirst name entries first) second :=
  List.foldl_append

theorem addFirst_of_mem (h : name entry ∈ entries.map name) :
    addFirst name entries entry = entries :=
  if_pos (hasName_iff.mpr h)

/-- Entries whose names are all present add nothing. -/
theorem addAllFirst_of_subset {more : List α} (h : more.map name ⊆ entries.map name) :
    addAllFirst name entries more = entries := by
  induction more with
  | nil => rfl
  | cons first rest ih =>
      obtain ⟨hfirst, hrest⟩ := List.cons_subset.mp h
      change addAllFirst name (addFirst name entries first) rest = entries
      rw [addFirst_of_mem hfirst, ih hrest]

theorem addAllFirst_addFirst (more : List α) (entry : α) :
    addAllFirst name entries (addFirst name more entry) =
      addFirst name (addAllFirst name entries more) entry := by
  by_cases hold : name entry ∈ more.map name
  · rw [addFirst_of_mem hold, addFirst_of_mem ((mem_names_addAllFirst more).mpr (Or.inr hold))]
  · rw [addFirst, if_neg (hasName_iff.not.mpr hold), addAllFirst_append]
    rfl

/-- Entries may be weeded out among themselves before they are added. -/
theorem addAllFirst_addAllFirst (first second : List α) :
    addAllFirst name entries (addAllFirst name first second) =
      addAllFirst name (addAllFirst name entries first) second := by
  induction second generalizing first with
  | nil => rfl
  | cons next rest ih =>
      change addAllFirst name entries (addAllFirst name (addFirst name first next) rest) = _
      rw [ih, addAllFirst_addFirst]
      rfl

/-- Entries that are not kept make no difference when all are added. -/
theorem addAllFirst_keepFirst (more : List α) :
    addAllFirst name entries (keepFirst name more) = addAllFirst name entries more :=
  addAllFirst_addAllFirst [] more

/-- What is there stays in front. -/
theorem prefix_addAllFirst (more : List α) : entries <+: addAllFirst name entries more := by
  induction more generalizing entries with
  | nil => exact List.prefix_rfl
  | cons first rest ih =>
      have hfirst : entries <+: addFirst name entries first := by
        unfold addFirst
        split
        · exact List.prefix_rfl
        · exact List.prefix_append _ _
      exact hfirst.trans ih

/-- An entry at the front stays there and hides the later ones of its name. -/
theorem addAllFirst_cons (first : α) (more : List α) :
    addAllFirst name (first :: entries) more =
      first :: addAllFirst name entries (removeName name more (name first)) := by
  induction more generalizing entries with
  | nil => rfl
  | cons next rest ih =>
      change addAllFirst name (addFirst name (first :: entries) next) rest = _
      by_cases hfirst : name next = name first
      · have hold : addFirst name (first :: entries) next = first :: entries := by
          simp [addFirst, hasName, hfirst]
        rw [hold, ih]
        simp [removeName, hfirst]
      · have hnew : addFirst name (first :: entries) next =
            first :: addFirst name entries next := by
          have hne : name first ≠ name next := Ne.symm hfirst
          simp only [addFirst, hasName, List.any_cons, beq_eq_false_iff_ne.mpr hne, Bool.false_or,
            List.cons_append]
          exact (apply_ite (first :: ·) _ _ _).symm
        rw [hnew, ih]
        simp [removeName, hfirst, addAllFirst]

/-- The first entry is kept and hides all later ones of its name. -/
theorem keepFirst_cons (first : α) (rest : List α) :
    keepFirst name (first :: rest) =
      first :: keepFirst name (removeName name rest (name first)) :=
  addAllFirst_cons first rest

/-- Of the entries added, the first of each new name go behind those that are there. -/
theorem addAllFirst_eq_append (more : List α) :
    addAllFirst name entries more =
      entries ++ keepFirst name (more.filter fun entry => !hasName name entries (name entry)) := by
  induction more generalizing entries with
  | nil => simp [addAllFirst, keepFirst]
  | cons first rest ih =>
      change addAllFirst name (addFirst name entries first) rest = _
      by_cases hold : hasName name entries (name first) = true
      · rw [addFirst, if_pos hold, ih, List.filter_cons_of_neg (by simp [hold])]
      · rw [addFirst, if_neg hold, ih, List.filter_cons_of_pos (by simp [hold]), keepFirst_cons,
          removeName, List.filter_filter, List.append_assoc, List.singleton_append]
        congr 3
        apply List.filter_congr
        intro entry _
        simp [hasName, Bool.and_comm, bne, BEq.comm]

/-- Only names count for which entries are kept. -/
theorem map_addAllFirst (more : List α) :
    (addAllFirst name entries more).map name =
      addAllFirst id (entries.map name) (more.map name) := by
  induction more generalizing entries with
  | nil => rfl
  | cons first rest ih =>
      have hfirst : (addFirst name entries first).map name =
          addFirst id (entries.map name) (name first) := by
        by_cases hold : name first ∈ entries.map name
        · rw [addFirst_of_mem hold, addFirst_of_mem (by simpa using hold)]
        · have hname : hasName name entries (name first) = false :=
            Bool.eq_false_iff.mpr (hasName_iff.not.mpr hold)
          have hid : hasName id (entries.map name) (id (name first)) = false :=
            Bool.eq_false_iff.mpr (hasName_iff.not.mpr (by simpa using hold))
          rw [addFirst, addFirst, hname, hid]
          simp
      change (addAllFirst name (addFirst name entries first) rest).map name = _
      rw [ih, hfirst]
      rfl

/-! ### Which entries are kept -/

theorem mem_of_mem_keepFirst (h : entry ∈ keepFirst name entries) : entry ∈ entries := by
  have hfound := findName?_of_mem (nodup_keepFirst entries) h
  rw [findName?_keepFirst] at hfound
  exact mem_of_findName? hfound

theorem hasName_keepFirst (entries : List α) :
    hasName name (keepFirst name entries) wanted = hasName name entries wanted := by
  rw [Bool.eq_iff_iff, hasName_iff, hasName_iff, ← findName?_isSome_iff, ← findName?_isSome_iff,
    findName?_keepFirst]

theorem keepFirst_concat (entries : List α) (entry : α) :
    keepFirst name (entries ++ [entry]) = addFirst name (keepFirst name entries) entry :=
  addAllFirst_append entries [entry]

/-- Entries may be selected by name before or after. -/
theorem keepFirst_filter (p : String → Bool) (entries : List α) :
    keepFirst name (entries.filter fun entry => p (name entry)) =
      (keepFirst name entries).filter fun entry => p (name entry) := by
  induction entries using List.reverseRecOn with
  | nil => rfl
  | append_singleton rest last ih =>
      rw [List.filter_append, keepFirst_concat, addFirst, hasName_keepFirst]
      cases hlast : p (name last) with
      | false =>
          have hone : ([last].filter fun entry => p (name entry)) = [] := by simp [hlast]
          rw [hone, List.append_nil, ih]
          split
          · rfl
          · rw [List.filter_append, hone, List.append_nil]
      | true =>
          have hone : ([last].filter fun entry => p (name entry)) = [last] := by simp [hlast]
          -- all entries of this name are selected, so whether there is one does not change
          have hsame : hasName name (rest.filter fun entry => p (name entry)) (name last) =
              hasName name rest (name last) := by
            rw [Bool.eq_iff_iff, hasName_iff, hasName_iff, ← findName?_isSome_iff,
              ← findName?_isSome_iff, findName?_filter, if_pos hlast]
          rw [hone, keepFirst_concat, addFirst, hasName_keepFirst, hsame, ih]
          split
          · rfl
          · rw [List.filter_append, hone]

theorem keepFirst_map {β : Type} (f : β → α) (sources : List β) :
    keepFirst name (sources.map f) = (keepFirst (name ∘ f) sources).map f := by
  induction sources using List.reverseRecOn with
  | nil => rfl
  | append_singleton rest last ih =>
      have hsame : hasName name (rest.map f) (name (f last)) =
          hasName (name ∘ f) rest (name (f last)) := by
        rw [Bool.eq_iff_iff, hasName_iff, hasName_iff, List.map_map]
      rw [List.map_append, List.map_singleton, keepFirst_concat, keepFirst_concat, addFirst,
        addFirst, hasName_keepFirst, hasName_keepFirst, hsame, ih]
      change _ = List.map f (if hasName (name ∘ f) rest (name (f last)) = true then _ else _)
      split
      · rfl
      · rw [List.map_append, List.map_singleton]

/-- The entries that have none of their name before them. -/
def firstOccurrences (name : α → String) (entries : List α) : List α :=
  (entries.zipIdx.filter fun entry =>
    !hasName name (entries.take entry.2) (name entry.1)).map Prod.fst

/-- What is before a position does not change when an entry is added at the end. -/
theorem take_concat_of_mem_zipIdx {other : α × Nat} (h : other ∈ entries.zipIdx) :
    (entries ++ [entry]).take other.2 = entries.take other.2 :=
  List.take_append_of_le_length (List.snd_lt_of_mem_zipIdx h).le

theorem firstOccurrences_concat (entries : List α) (entry : α) :
    firstOccurrences name (entries ++ [entry]) =
      firstOccurrences name entries ++
        if hasName name entries (name entry) then [] else [entry] := by
  rw [firstOccurrences, firstOccurrences, List.zipIdx_append, List.filter_append, List.map_append]
  congr 1
  · congr 1
    apply List.filter_congr
    intro other hother
    rw [take_concat_of_mem_zipIdx hother]
  · simp only [List.zipIdx_singleton, Nat.zero_add, List.filter_singleton, List.take_left]
    cases hasName name entries (name entry) <;> rfl

/-- Kept are the entries without an earlier one of their name. -/
theorem keepFirst_eq_firstOccurrences (entries : List α) :
    keepFirst name entries = firstOccurrences name entries := by
  induction entries using List.reverseRecOn with
  | nil => rfl
  | append_singleton rest last ih =>
      rw [keepFirst_concat, firstOccurrences_concat, addFirst, hasName_keepFirst, ih]
      split
      · rw [List.append_nil]
      · rfl

/-! ## Catalogs -/

namespace Catalog

variable (model : Model)

@[simp]
theorem structure?_ofModel (wanted : String) :
    (ofModel model).structure? wanted = findName? Structure.name model.structures wanted :=
  findName?_keepFirst _

@[simp]
theorem enumeration?_ofModel (wanted : String) :
    (ofModel model).enumeration? wanted = findName? Enumeration.name model.enumerations wanted :=
  findName?_keepFirst _

@[simp]
theorem alias?_ofModel (wanted : String) :
    (ofModel model).alias? wanted = findName? TypeAlias.name model.aliases wanted :=
  findName?_keepFirst _

theorem nodup_structures : ((ofModel model).structures.map Structure.name).Nodup :=
  nodup_keepFirst _

end Catalog

end ProtocolCodec
