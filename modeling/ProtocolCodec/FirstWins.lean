/-!
# Keeping the first of each name

Declarations, properties and variants are told apart by a name; where a name comes back, the first
one stands. The order is that of the first occurrences.
-/

namespace ProtocolCodec

section

variable {α : Type}

/-- Whether an entry of this name is present. -/
def hasName (name : α → String) (entries : List α) (wanted : String) : Bool :=
  entries.any fun entry => name entry == wanted

/-- Append an entry unless one of its name is present. -/
def addFirst (name : α → String) (entries : List α) (entry : α) : List α :=
  if hasName name entries (name entry) then entries else entries ++ [entry]

/-- Append entries in turn, each unless one of its name is present. -/
def addAllFirst (name : α → String) (entries more : List α) : List α :=
  more.foldl (addFirst name) entries

/-- The first entry of each name. -/
def keepFirst (name : α → String) (entries : List α) : List α :=
  addAllFirst name [] entries

/-- The entry of a name. -/
def findName? (name : α → String) (entries : List α) (wanted : String) : Option α :=
  entries.find? fun entry => name entry == wanted

/-- The entries whose name has been seen before them. -/
def repeats (name : α → String) : List String → List α → List α
  | _, [] => []
  | seen, entry :: rest =>
      if seen.contains (name entry) then entry :: repeats name seen rest
      else repeats name (name entry :: seen) rest

/-- The entries of other names. -/
def removeName (name : α → String) (entries : List α) (unwanted : String) : List α :=
  entries.filter fun entry => name entry != unwanted

/-- Removing a name that was found shortens the list. -/
theorem length_removeName_lt {name : α → String} {entries : List α} {wanted : String} {entry : α}
    (h : findName? name entries wanted = some entry) :
    (removeName name entries wanted).length < entries.length := by
  induction entries with
  | nil => simp [findName?] at h
  | cons first rest ih =>
      have hle : (removeName name rest wanted).length ≤ rest.length := List.length_filter_le _ _
      by_cases hfirst : name first = wanted
      · simp only [removeName, List.filter_cons, hfirst, bne_self_eq_false, Bool.false_eq_true,
          if_false, List.length_cons]
        exact Nat.lt_succ_of_le hle
      · have hrest : findName? name rest wanted = some entry := by
          simpa [findName?, List.find?_cons, hfirst] using h
        have := ih hrest
        simp only [removeName, List.filter_cons, bne_iff_ne, ne_eq, hfirst, not_false_eq_true,
          if_true, List.length_cons] at this ⊢
        omega

end

end ProtocolCodec
