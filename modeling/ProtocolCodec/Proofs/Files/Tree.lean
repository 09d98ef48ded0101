import Mathlib.Data.List.TakeWhile
import ProtocolCodec.Files.Tree
import ProtocolCodec.Proofs.Outcome

/-!
# What file operations see and change

A tree is known by what can be seen at each place: nothing, a directory, or a file with its content.
What is read under a path is decided by what is seen where the path leads. Writing a file changes
what is seen at one place, and making directories only lets directories appear where there was
nothing. A walk goes through directories, so it leads to the same place in every tree that has these
directories too; what has been written is found under the same path.
-/

namespace ProtocolCodec

/-- What can be seen at a place. -/
inductive Sight where
  | nothing
  | directory
  | file (content : ByteArray)

namespace Node

variable {name other : String} {location place parent : Location} {node new child : Node}
  {below : List (String × Node)}

/-- What is seen of a node from outside. -/
def sight : Option Node → Sight
  | none => .nothing
  | some (.directory _) => .directory
  | some (.file content) => .file content

/-! ## Putting a node into a tree -/

theorem find?_nil : node.find? [] = some node :=
  rfl

theorem find?_cons : node.find? (name :: location) = (node.child? name).bind (find? · location) :=
  List.foldlM_cons

theorem find?_concat :
    node.find? (location ++ [name]) = (node.find? location).bind (child? · name) := by
  rw [find?, List.foldlM_append]
  change (node.find? location).bind (fun found => [name].foldlM child? found) = _
  simp only [List.foldlM_cons, List.foldlM_nil, bind_pure]

theorem find?_cons_of_entries_eq_nil (h : node.entries = []) :
    node.find? (name :: location) = none := by
  rw [find?_cons, child?, h]
  rfl

theorem child?_setChild_self : (node.setChild name child).child? name = some child := by
  rw [setChild, child?, entries, List.lookup_cons, beq_self_eq_true]

theorem child?_setChild_of_ne (h : other ≠ name) :
    (node.setChild name child).child? other = node.child? other := by
  rw [setChild, child?, entries, List.lookup_cons, beq_false_of_ne h, child?]
  change List.lookup other _ = _
  induction node.entries with
  | nil => rfl
  | cons entry rest ih =>
      obtain ⟨key, value⟩ := entry
      by_cases hkey : key = name
      · subst hkey
        rw [List.filter_cons_of_neg (by simp), List.lookup_cons, beq_false_of_ne h, ih]
      · rw [List.filter_cons_of_pos (by simpa using hkey), List.lookup_cons, List.lookup_cons, ih]

theorem exists_of_find?_cons (h : node.find? (name :: location) = some (.directory below)) :
    ∃ entries child, node = .directory entries ∧ node.child? name = some child ∧
      child.find? location = some (.directory below) := by
  rw [find?_cons] at h
  obtain ⟨child, hchild, hfind⟩ := Option.bind_eq_some_iff.mp h
  cases node with
  | file content => cases hchild
  | directory entries => exact ⟨entries, child, rfl, hchild, hfind⟩

/-- What is put into a directory changes what is seen at that place and nowhere else, provided that
nothing was below it and nothing will be. -/
theorem sight_find?_put (hparent : node.find? parent = some (.directory below))
    (hold : ∀ old, node.find? (parent ++ [name]) = some old → old.entries = [])
    (hnew : new.entries = []) (place : Location) :
    sight ((new.put (parent ++ [name]) node).find? place) =
      if place = parent ++ [name] then sight (some new) else sight (node.find? place) := by
  induction parent generalizing node place with
  | nil =>
      rw [find?_nil, Option.some.injEq] at hparent
      subst hparent
      rw [List.nil_append, put, put]
      cases place with
      | nil => rfl
      | cons first rest =>
          rw [find?_cons, find?_cons]
          by_cases hfirst : first = name
          · subst hfirst
            rw [child?_setChild_self, Option.bind_some]
            cases rest with
            | nil => rw [find?_nil, if_pos rfl]
            | cons second rest =>
                rw [find?_cons_of_entries_eq_nil hnew, if_neg (by simp)]
                cases hchild : child? (.directory below) first with
                | none => rfl
                | some old =>
                    have hfind : find? (.directory below) [first] = some old := by
                      rw [find?_cons, hchild]
                      rfl
                    rw [Option.bind_some, find?_cons_of_entries_eq_nil (hold old hfind)]
          · rw [child?_setChild_of_ne hfirst, if_neg (by simp [hfirst])]
  | cons head parent ih =>
      obtain ⟨entries, child, rfl, hchild, hfind⟩ := exists_of_find?_cons hparent
      rw [List.cons_append, put, hchild, Option.getD_some]
      cases place with
      | nil => rfl
      | cons first rest =>
          rw [find?_cons, find?_cons]
          by_cases hfirst : first = head
          · subst hfirst
            rw [child?_setChild_self, hchild, Option.bind_some, Option.bind_some, ih hfind]
            · simp
            · intro old hfound
              apply hold
              rw [List.cons_append, find?_cons, hchild]
              exact hfound
          · rw [child?_setChild_of_ne hfirst, if_neg (by simp [hfirst])]

end Node

namespace FileTree

variable {tree later : FileTree} {path name : String} {location parent : Location}
  {place next : Place} {piece : String} {pieces : List String}

/-- What is seen at a place of a tree. -/
def sight (tree : FileTree) (location : Location) : Sight :=
  Node.sight (tree.node? location)

theorem sight_eq_directory_iff :
    tree.sight location = .directory ↔
      ∃ entries, tree.node? location = some (.directory entries) := by
  unfold sight
  cases tree.node? location with
  | none => simp [Node.sight]
  | some node => cases node <;> simp [Node.sight]

theorem sight_eq_nothing_iff : tree.sight location = .nothing ↔ tree.node? location = none := by
  unfold sight
  cases tree.node? location with
  | none => simp [Node.sight]
  | some node => cases node <;> simp [Node.sight]

/-- What is put at a place of a directory is seen there and nowhere else. -/
theorem sight_put {new : Node} (hparent : tree.sight parent = .directory)
    (hold : tree.sight (parent ++ [name]) ≠ .directory) (hnew : new.entries = [])
    (location : Location) :
    (tree.put (parent ++ [name]) new).sight location =
      if location = parent ++ [name] then Node.sight (some new) else tree.sight location := by
  obtain ⟨below, hbelow⟩ := sight_eq_directory_iff.mp hparent
  refine Node.sight_find?_put hbelow ?_ hnew location
  intro old hfound
  cases old with
  | file content => rfl
  | directory entries => exact absurd (sight_eq_directory_iff.mpr ⟨entries, hfound⟩) hold

/-! ## Walking -/

/-- The place knows what stands there. -/
def Has (tree : FileTree) (place : Place) : Prop :=
  place.node? = tree.node? place.location

theorem location_place : (tree.place location).location = location :=
  List.reverse_reverse location

theorem has_place : tree.Has (tree.place location) := by
  rw [Has, location_place, place]

/-- A place that knows what stands there is the place of its location. -/
theorem Has.eq_place (h : tree.Has place) : tree.place place.location = place := by
  obtain ⟨back, node⟩ := place
  rw [FileTree.place, ← h, Place.location, List.reverse_reverse]

/-- What a step does: it stays, goes up, or goes down to a name. -/
theorem step_cases (h : tree.step place piece = .ok next) :
    ∃ entries, place.node? = some (.directory entries) ∧
      (Files.isIdle piece = true ∧ next = place ∨
        Files.isIdle piece = false ∧ piece = ".." ∧ next = tree.place place.back.tail.reverse ∨
        Files.isIdle piece = false ∧ piece ≠ ".." ∧ ¬ nameLimit < piece.utf8ByteSize ∧
          next = ⟨piece :: place.back, entries.lookup piece⟩) := by
  unfold step at h
  cases hnode : place.node? with
  | none =>
      rw [hnode] at h
      cases h
  | some node =>
      rw [hnode] at h
      cases node with
      | file content => cases h
      | directory entries =>
          refine ⟨entries, rfl, ?_⟩
          simp only at h
          split at h
          next hidle => exact .inl ⟨hidle, (Except.ok.inj h).symm⟩
          next hidle =>
            rw [Bool.not_eq_true] at hidle
            split at h
            next hup => exact .inr (.inl ⟨hidle, hup, (Except.ok.inj h).symm⟩)
            next hup =>
              split at h
              next => cases h
              next hlimit => exact .inr (.inr ⟨hidle, hup, hlimit, (Except.ok.inj h).symm⟩)

/-- A step keeps to what stands in the tree. -/
theorem Has.step (hplace : tree.Has place) (h : tree.step place piece = .ok next) :
    tree.Has next := by
  obtain ⟨entries, hnode, ⟨_, rfl⟩ | ⟨_, _, rfl⟩ | ⟨_, _, _, rfl⟩⟩ := step_cases h
  · exact hplace
  · exact has_place
  · have hlocation : (⟨piece :: place.back, entries.lookup piece⟩ : Place).location =
        place.location ++ [piece] := List.reverse_cons
    rw [Has, hlocation, node?, Node.find?_concat]
    rw [Has, hnode, node?] at hplace
    rw [← hplace]
    rfl

/-- The later tree has all directories of the tree, and paths start at the same place. -/
structure Keeps (tree later : FileTree) : Prop where
  workingDirectory : later.workingDirectory = tree.workingDirectory
  directory : ∀ location, tree.sight location = .directory → later.sight location = .directory

/-- A step that can be taken can still be taken later. -/
theorem Keeps.step (hkeeps : tree.Keeps later) (hplace : tree.Has place)
    (h : tree.step place piece = .ok next) :
    later.step (later.place place.location) piece = .ok (later.place next.location) := by
  obtain ⟨entries, hnode, hcases⟩ := step_cases h
  rw [hplace] at hnode
  obtain ⟨below, hbelow⟩ := sight_eq_directory_iff.mp
    (hkeeps.directory _ (sight_eq_directory_iff.mpr ⟨entries, hnode⟩))
  have hlater : (later.place place.location).node? = some (.directory below) := hbelow
  have hback : (later.place place.location).back = place.back :=
    List.reverse_reverse place.back
  unfold FileTree.step
  rw [hlater]
  obtain ⟨hidle, rfl⟩ | ⟨hidle, rfl, rfl⟩ | ⟨hidle, hup, hlimit, rfl⟩ := hcases
  · simp only [hidle, if_true]
  · simp only [hidle, if_true, Bool.false_eq_true, if_false, hback, location_place]
  · simp only [hidle, hup, hlimit, Bool.false_eq_true, if_false, hback]
    have hlocation : Place.location ⟨piece :: place.back, entries.lookup piece⟩ =
        place.location ++ [piece] := List.reverse_cons
    rw [hlocation, FileTree.place, List.reverse_concat, node?, Node.find?_concat]
    rw [node?] at hbelow
    rw [hbelow, Place.location, List.reverse_reverse]
    rfl

theorem Has.foldlM_step (hplace : tree.Has place)
    (h : pieces.foldlM tree.step place = .ok next) : tree.Has next := by
  induction pieces generalizing place with
  | nil =>
      cases h
      exact hplace
  | cons piece pieces ih =>
      rw [List.foldlM_cons] at h
      obtain ⟨middle, hstep, hrest⟩ := exists_of_bind_eq_ok h
      exact ih (hplace.step hstep) hrest

/-- Steps that can be taken in turn can still be taken later. -/
theorem Keeps.foldlM_step (hkeeps : tree.Keeps later) (hplace : tree.Has place)
    (h : pieces.foldlM tree.step place = .ok next) :
    pieces.foldlM later.step (later.place place.location) = .ok (later.place next.location) := by
  induction pieces generalizing place with
  | nil =>
      cases h
      rfl
  | cons piece pieces ih =>
      rw [List.foldlM_cons] at h ⊢
      obtain ⟨middle, hstep, hrest⟩ := exists_of_bind_eq_ok h
      rw [hkeeps.step hplace hstep]
      exact ih (hplace.step hstep) hrest

theorem has_of_walk (h : tree.walk path pieces = .ok next) : tree.Has next :=
  has_place.foldlM_step h

/-- A walk leads to the same place later. -/
theorem Keeps.walk (hkeeps : tree.Keeps later) (h : tree.walk path pieces = .ok next) :
    later.walk path pieces = .ok (later.place next.location) := by
  have hwalk := hkeeps.foldlM_step has_place h
  rw [location_place] at hwalk
  rw [FileTree.walk, hkeeps.workingDirectory]
  exact hwalk

theorem walk_concat (h : tree.walk path pieces = .ok place) :
    tree.walk path (pieces ++ [piece]) = tree.step place piece := by
  rw [walk, List.foldlM_append, ← walk, h]
  change [piece].foldlM tree.step place = _
  rw [List.foldlM_cons]
  simp only [List.foldlM_nil, bind_pure]

/-- Slashes at the end lead nowhere from a directory. -/
theorem walk_append_of_idle {slashes : List String} (hslashes : ∀ piece ∈ slashes, piece = "")
    (h : tree.walk path pieces = .ok place)
    (hplace : ∃ entries, place.node? = some (.directory entries)) :
    tree.walk path (pieces ++ slashes) = .ok place := by
  induction slashes generalizing pieces with
  | nil => rwa [List.append_nil]
  | cons slash slashes ih =>
      obtain ⟨hslash, hrest⟩ := List.forall_mem_cons.mp hslashes
      subst hslash
      have hstep : tree.walk path (pieces ++ [""]) = .ok place := by
        obtain ⟨entries, hnode⟩ := hplace
        rw [walk_concat h, step, hnode]
        rfl
      rw [List.append_cons]
      exact ih hrest hstep

theorem locate_eq_ok_iff :
    tree.locate path = .ok place ↔
      checkPath path = .ok () ∧ tree.walk path (Files.pieces path) = .ok place := by
  rw [locate]
  cases checkPath path <;> simp [bind, Except.bind]

theorem has_of_locate (h : tree.locate path = .ok place) : tree.Has place :=
  has_of_walk (locate_eq_ok_iff.mp h).2

/-- A path leads to the same place later. -/
theorem Keeps.locate (hkeeps : tree.Keeps later) (h : tree.locate path = .ok place) :
    later.locate path = .ok (later.place place.location) := by
  rw [locate_eq_ok_iff] at h ⊢
  exact ⟨h.1, hkeeps.walk h.2⟩

/-! ## Reading a file -/

/-- What reading the text under a path comes to, by what is seen where the path leads. -/
inductive Reads (tree : FileTree) (path : String) : Except FileError String → Prop where
  /-- The path leads nowhere. -/
  | astray {error : FileError} (hlocate : tree.locate path = .error error) :
      Reads tree path (.error error)
  | missing {location : Location} (hlocate : tree.locate path = .ok (tree.place location))
      (hsight : tree.sight location = .nothing) : Reads tree path (.error .notFound)
  | directory {location : Location} (hlocate : tree.locate path = .ok (tree.place location))
      (hsight : tree.sight location = .directory) : Reads tree path (.error .isDirectory)
  /-- The bytes of the file are those of no text. -/
  | notText {location : Location} {content : ByteArray}
      (hlocate : tree.locate path = .ok (tree.place location))
      (hsight : tree.sight location = .file content)
      (hcontent : ∀ text : String, text.toUTF8 ≠ content) : Reads tree path (.error .notText)
  | text {location : Location} {text : String}
      (hlocate : tree.locate path = .ok (tree.place location))
      (hsight : tree.sight location = .file text.toUTF8) : Reads tree path (.ok text)

/-- Bytes are a text just when they are its bytes. -/
theorem fromUTF8?_eq_some_iff {content : ByteArray} {text : String} :
    String.fromUTF8? content = some text ↔ text.toUTF8 = content := by
  constructor
  · intro h
    unfold String.fromUTF8? at h
    split at h
    next =>
      cases h
      rfl
    next => cases h
  · rintro rfl
    exact dif_pos text.isValidUTF8

/-- What is read of a place is what is seen there. -/
theorem readBytes_of_locate (h : tree.locate path = .ok (tree.place location)) :
    tree.readBytes path =
      match tree.sight location with
      | .nothing => .error .notFound
      | .directory => .error .isDirectory
      | .file content => .ok content := by
  have hnode : (tree.place location).node? = tree.node? location := rfl
  simp only [readBytes, h, bind, Except.bind, hnode, sight]
  cases tree.node? location with
  | none => rfl
  | some node => cases node <;> rfl

/-- What a tree shows decides what is read. -/
theorem Reads.readText_eq {outcome : Except FileError String} (h : tree.Reads path outcome) :
    tree.readText path = outcome := by
  rw [readText]
  cases h with
  | astray hlocate => simp only [readBytes, hlocate, bind, Except.bind]
  | missing hlocate hsight => simp only [readBytes_of_locate hlocate, hsight, bind, Except.bind]
  | directory hlocate hsight => simp only [readBytes_of_locate hlocate, hsight, bind, Except.bind]
  | @notText _ content hlocate hsight hcontent =>
      have hnone : String.fromUTF8? content = none := by
        rw [Option.eq_none_iff_forall_ne_some]
        exact fun text htext => hcontent text (fromUTF8?_eq_some_iff.mp htext)
      simp only [readBytes_of_locate hlocate, hsight, bind, Except.bind, hnone]
  | text hlocate hsight =>
      simp only [readBytes_of_locate hlocate, hsight, bind, Except.bind,
        fromUTF8?_eq_some_iff.mpr rfl]

/-- Something is read under every path, if only an error. -/
theorem exists_reads (tree : FileTree) (path : String) : ∃ outcome, tree.Reads path outcome := by
  cases hlocate : tree.locate path with
  | error error => exact ⟨_, .astray hlocate⟩
  | ok place =>
      rw [← (has_of_locate hlocate).eq_place] at hlocate
      cases hsight : tree.sight place.location with
      | nothing => exact ⟨_, .missing hlocate hsight⟩
      | directory => exact ⟨_, .directory hlocate hsight⟩
      | file content =>
          by_cases htext : ∃ text : String, text.toUTF8 = content
          · obtain ⟨text, rfl⟩ := htext
            exact ⟨_, .text hlocate hsight⟩
          · exact ⟨_, .notText hlocate hsight (not_exists.mp htext)⟩

/-- Reading a text comes to what the tree shows and to nothing else. -/
theorem reads_iff {outcome : Except FileError String} :
    tree.Reads path outcome ↔ tree.readText path = outcome := by
  refine ⟨Reads.readText_eq, ?_⟩
  rintro rfl
  obtain ⟨outcome, hreads⟩ := tree.exists_reads path
  rwa [hreads.readText_eq]

/-! ## The last name of a path -/

/-- A path that ends in a name and slashes is made of what comes before the name, the name, and an
empty piece for each slash. -/
theorem pieces_eq_of_splitLast {front : List String} {slashed : Bool}
    (h : splitLast path = (front, name, slashed)) (hname : name ≠ "") :
    ∃ slashes, (∀ piece ∈ slashes, piece = "") ∧
      Files.pieces path = front ++ [name] ++ slashes ∧ (slashed = false → slashes = []) := by
  obtain ⟨hfront, hlast, hslashed⟩ : _ ∧ _ ∧ _ := by
    simpa only [splitLast, Prod.mk.injEq] using h
  set named := ((Files.pieces path).reverse.dropWhile (· == "")).reverse with hnamed
  have hsplit : Files.pieces path =
      named ++ ((Files.pieces path).reverse.takeWhile (· == "")).reverse := by
    rw [hnamed, ← List.reverse_append, List.takeWhile_append_dropWhile, List.reverse_reverse]
  have hends : named = front ++ [name] := by
    cases hgetLast : named.getLast? with
    | none =>
        rw [hgetLast] at hlast
        exact absurd hlast.symm hname
    | some last =>
        rw [hgetLast, Option.getD_some] at hlast
        subst hlast hfront
        obtain ⟨most, hmost⟩ := List.getLast?_eq_some_iff.mp hgetLast
        rw [hmost, List.dropLast_concat]
  refine ⟨_, ?_, hends ▸ hsplit, ?_⟩
  · intro piece hpiece
    rw [List.mem_reverse] at hpiece
    simpa using List.mem_takeWhile_imp hpiece
  · intro hfalse
    have hlength := congrArg List.length hsplit
    rw [List.length_append] at hlength
    rw [hfalse, decide_eq_false_iff_not] at hslashed
    apply List.eq_nil_of_length_eq_zero
    omega

/-- A name in a directory leads to the place of that name. -/
theorem step_down (hplace : tree.Has place) (hidle : Files.isIdle piece = false)
    (hup : piece ≠ "..") (h : tree.step place piece = .ok next) :
    tree.sight place.location = .directory ∧ next = tree.place (place.location ++ [piece]) := by
  have hnext := hplace.step h
  obtain ⟨entries, hnode, ⟨hstays, _⟩ | ⟨_, hdots, _⟩ | ⟨_, _, _, rfl⟩⟩ := step_cases h
  · rw [hidle] at hstays
    cases hstays
  · exact absurd hdots hup
  · refine ⟨sight_eq_directory_iff.mpr ⟨entries, hplace ▸ hnode⟩, ?_⟩
    have hlocation : Place.location ⟨piece :: place.back, entries.lookup piece⟩ =
        place.location ++ [piece] := List.reverse_cons
    rw [← hlocation, hnext.eq_place]

/-! ## Writing a file -/

theorem ne_empty_of_not_isIdle (h : Files.isIdle name = false) : name ≠ "" := by
  rintro rfl
  cases h

/-- A file is written at a place in a directory where no directory is, and the path leads there. -/
theorem exists_of_writeBytes {content : ByteArray} (h : tree.writeBytes path content = .ok later) :
    ∃ parent name, tree.sight parent = .directory ∧ tree.sight (parent ++ [name]) ≠ .directory ∧
      tree.locate path = .ok (tree.place (parent ++ [name])) ∧
      later = tree.put (parent ++ [name]) (.file content) := by
  obtain ⟨⟨⟩, hcheck, h⟩ := exists_of_bind_eq_ok h
  rcases hsplit : splitLast path with ⟨front, name, slashed⟩
  rw [hsplit] at h
  obtain ⟨directory, hwalk, h⟩ := exists_of_bind_eq_ok h
  obtain ⟨_, _, h⟩ := exists_of_bind_eq_ok h
  split at h
  next => cases h
  next hname =>
    simp only [Bool.or_eq_true, decide_eq_true_eq, not_or, Bool.not_eq_true] at hname
    obtain ⟨⟨hslashed, hidle⟩, hup⟩ := hname
    obtain ⟨place, hstep, h⟩ := exists_of_bind_eq_ok h
    obtain ⟨hdirectory, rfl⟩ := step_down (has_of_walk hwalk) hidle hup hstep
    refine ⟨directory.location, name, hdirectory, ?_, ?_, ?_⟩
    · intro hsight
      obtain ⟨entries, hentries⟩ := sight_eq_directory_iff.mp hsight
      have hnode : (tree.place (directory.location ++ [name])).node? =
        some (.directory entries) := hentries
      rw [hnode] at h
      cases h
    · obtain ⟨slashes, _, hpieces, hnone⟩ :=
        pieces_eq_of_splitLast hsplit (ne_empty_of_not_isIdle hidle)
      rw [hnone hslashed, List.append_nil] at hpieces
      rw [locate_eq_ok_iff, hpieces, walk_concat hwalk]
      exact ⟨hcheck, hstep⟩
    · split at h
      next => cases h
      next =>
        rw [location_place] at h
        exact (Except.ok.inj h).symm

/-- Writing a file changes what is seen at the place of the path, where the file then is. -/
theorem sight_writeBytes {content : ByteArray} (h : tree.writeBytes path content = .ok later) :
    ∃ location, tree.Keeps later ∧ later.locate path = .ok (later.place location) ∧
      ∀ other, later.sight other = if other = location then .file content else tree.sight other := by
  obtain ⟨parent, name, hparent, hold, hlocate, rfl⟩ := exists_of_writeBytes h
  have hsight : ∀ other, (tree.put (parent ++ [name]) (.file content)).sight other =
      if other = parent ++ [name] then .file content else tree.sight other :=
    sight_put hparent hold rfl
  have hkeeps : tree.Keeps (tree.put (parent ++ [name]) (.file content)) := by
    refine ⟨rfl, fun location hlocation => ?_⟩
    rw [hsight, if_neg, hlocation]
    rintro rfl
    exact hold hlocation
  refine ⟨parent ++ [name], hkeeps, ?_, hsight⟩
  have hlater := hkeeps.locate hlocate
  rwa [location_place] at hlater

/-! ## Making directories -/

/-- The later tree is the tree with directories added, each of them one that a path leads to. -/
structure Grows (tree : FileTree) (paths : List String) (later : FileTree) : Prop where
  workingDirectory : later.workingDirectory = tree.workingDirectory
  sight : ∀ location, later.sight location = tree.sight location ∨
    tree.sight location = .nothing ∧ later.sight location = .directory ∧
      ∃ path ∈ paths, later.locate path = .ok (later.place location)

namespace Grows

variable {paths : List String} {latest : FileTree}

theorem refl (tree : FileTree) (paths : List String) : tree.Grows paths tree :=
  ⟨rfl, fun _ => .inl rfl⟩

theorem keeps (h : tree.Grows paths later) : tree.Keeps later where
  workingDirectory := h.workingDirectory
  directory location hlocation := by
    rcases h.sight location with hsame | ⟨_, hdirectory, _⟩
    · rw [hsame, hlocation]
    · exact hdirectory

theorem trans (h : tree.Grows paths later) (h' : later.Grows paths latest) :
    tree.Grows paths latest where
  workingDirectory := h'.workingDirectory.trans h.workingDirectory
  sight location := by
    rcases h'.sight location with hsame' | ⟨hnothing', hadded'⟩
    · rcases h.sight location with hsame | ⟨hnothing, hdirectory, path, hpath, hlocate⟩
      · exact .inl (hsame'.trans hsame)
      · have hlater := h'.keeps.locate hlocate
        rw [location_place] at hlater
        exact .inr ⟨hnothing, hsame'.trans hdirectory, path, hpath, hlater⟩
    · rcases h.sight location with hsame | ⟨_, hdirectory, _⟩
      · exact .inr ⟨hsame.symm.trans hnothing', hadded'⟩
      · rw [hdirectory] at hnothing'
        cases hnothing'

theorem mono {more : List String} (h : tree.Grows paths later) (hsubset : paths ⊆ more) :
    tree.Grows more later where
  workingDirectory := h.workingDirectory
  sight location := by
    rcases h.sight location with hsame | ⟨hnothing, hdirectory, path, hpath, hlocate⟩
    · exact .inl hsame
    · exact .inr ⟨hnothing, hdirectory, path, hsubset hpath, hlocate⟩

end Grows

/-- A directory is made where nothing is, and the path leads there once it is made. -/
theorem grows_of_makeDirectory (h : tree.makeDirectory path = .ok later) :
    tree.Grows [path] later := by
  obtain ⟨⟨⟩, hcheck, h⟩ := exists_of_bind_eq_ok h
  rcases hsplit : splitLast path with ⟨front, name, slashed⟩
  rw [hsplit] at h
  obtain ⟨directory, hwalk, h⟩ := exists_of_bind_eq_ok h
  obtain ⟨place, hstep, h⟩ := exists_of_bind_eq_ok h
  split at h
  next => cases h
  next hname =>
    simp only [Bool.or_eq_true, decide_eq_true_eq, not_or, Bool.not_eq_true] at hname
    obtain ⟨hidle, hup⟩ := hname
    obtain ⟨hdirectory, rfl⟩ := step_down (has_of_walk hwalk) hidle hup hstep
    split at h
    next => cases h
    next hnone =>
      have hnothing : tree.sight (directory.location ++ [name]) = .nothing :=
        sight_eq_nothing_iff.mpr hnone
      rw [location_place, Except.ok.injEq] at h
      have hsight : ∀ other, later.sight other =
          if other = directory.location ++ [name] then .directory else tree.sight other := by
        rw [← h]
        exact sight_put hdirectory (by rw [hnothing]; exact nofun) rfl
      have hmade : later.sight (directory.location ++ [name]) = .directory := by
        rw [hsight, if_pos rfl]
      have hkeeps : tree.Keeps later := by
        refine ⟨h ▸ rfl, fun location hlocation => ?_⟩
        rw [hsight, hlocation, ite_self]
      have hlocate : later.locate path = .ok (later.place (directory.location ++ [name])) := by
        obtain ⟨slashes, hslashes, hpieces, _⟩ :=
          pieces_eq_of_splitLast hsplit (ne_empty_of_not_isIdle hidle)
        have hlater := hkeeps.walk ((walk_concat hwalk).trans hstep)
        rw [location_place] at hlater
        rw [locate_eq_ok_iff, hpieces]
        exact ⟨hcheck, walk_append_of_idle hslashes hlater (sight_eq_directory_iff.mp hmade)⟩
      refine ⟨hkeeps.workingDirectory, fun location => ?_⟩
      by_cases hlocation : location = directory.location ++ [name]
      · subst hlocation
        exact .inr ⟨hnothing, hmade, path, List.mem_singleton_self path, hlocate⟩
      · exact .inl (by rw [hsight, if_neg hlocation])

/-- Making a directory unless it is there adds that one at most. -/
theorem grows_of_ensureDirectory (h : tree.ensureDirectory path = .ok later) :
    tree.Grows [path] later := by
  unfold ensureDirectory at h
  split at h
  · split at h
    · cases h
      exact Grows.refl _ _
    · cases h
  · exact grows_of_makeDirectory h

/-- Going up to the first directory whose parent exists adds directories on the way at most, and
leaves those below it to be made. -/
theorem grows_of_makeTopmost {paths missing left : List String}
    (h : tree.makeTopmost paths missing = .ok (later, left)) :
    tree.Grows paths later ∧ left ⊆ paths ++ missing := by
  induction paths generalizing missing with
  | nil =>
      cases h
      exact ⟨Grows.refl _ _, List.Subset.refl _⟩
  | cons path parents ih =>
      rw [makeTopmost] at h
      split at h
      · cases h
        exact ⟨Grows.refl _ _, List.subset_append_right _ _⟩
      · split at h
        next hensure =>
          cases h
          exact ⟨(grows_of_ensureDirectory hensure).mono (by simp),
            List.subset_append_right _ _⟩
        next =>
          obtain ⟨hgrows, hleft⟩ := ih h
          exact ⟨hgrows.mono (List.subset_cons_self _ _),
            List.Subset.trans hleft List.perm_middle.subset⟩
        next => cases h

/-- Making directories in order adds those directories at most, also when one of them fails. -/
theorem grows_of_makeEach {paths : List String} : tree.Grows paths (tree.makeEach paths).2 := by
  induction paths generalizing tree with
  | nil => exact Grows.refl _ _
  | cons path paths ih =>
      rw [makeEach]
      split
      next hensure =>
        exact ((grows_of_ensureDirectory hensure).mono (by simp)).trans
          (ih.mono (List.subset_cons_self _ _))
      next => exact Grows.refl _ _

/-- Whether or not all directories can be made, nothing but directories above the path appears. -/
theorem grows_makeDirectories :
    tree.Grows (Files.ancestors path) (tree.makeDirectories path).2 := by
  rw [makeDirectories]
  split
  next hmade =>
    obtain ⟨hgrows, hleft⟩ := grows_of_makeTopmost hmade
    rw [List.append_nil] at hleft
    exact hgrows.trans (grows_of_makeEach.mono hleft)
  next => exact Grows.refl _ _

end FileTree

end ProtocolCodec
