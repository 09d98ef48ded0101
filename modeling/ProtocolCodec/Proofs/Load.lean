import ProtocolCodec.Load
import ProtocolCodec.Proofs.Files.Tree

/-!
# Loading documents

A document is loaded from a file just when the file holds a text that begins with the document. A
file that cannot be read and a text that is not the document it should be are told apart.
-/

namespace ProtocolCodec

section

variable {α : Type} {ofText : String → Json.Outcome α} {source : TextSource} {path text : String}

/-! ## From any source -/

/-- A file without a text is reported as unreadable. -/
theorem load_of_unreadable {error : FileError} (hread : source path = .error error) :
    load ofText source path = .error (.unreadable path error) := by
  rw [load, hread]

/-- A text that is not the document it should be is reported with its failure. -/
theorem load_of_malformed {failure : Json.Failure} (hread : source path = .ok text)
    (hparse : ofText text = .error failure) :
    load ofText source path = .error (.malformed path text failure) := by
  simp only [load, hread, hparse, Except.mapError]

/-- A text that begins with a document is loaded as that document. -/
theorem load_of_wellFormed {a : α} (hread : source path = .ok text) (hparse : ofText text = .ok a) :
    load ofText source path = .ok a := by
  simp only [load, hread, hparse, Except.mapError]

end

/-! ## From a file tree -/

namespace FileTree

variable {α : Type} {tree : FileTree} {ofText : String → Json.Outcome α} {path : String}
  {outcome : Except LoadError α}

/-- What loading a document from the file under a path comes to. -/
inductive Loads {α : Type} (tree : FileTree) (ofText : String → Json.Outcome α) (path : String) :
    Except LoadError α → Prop where
  /-- There is no text under the path. -/
  | unreadable {error : FileError} (hread : tree.Reads path (.error error)) :
      Loads tree ofText path (.error (.unreadable path error))
  /-- The text does not begin with a document. -/
  | malformed {text : String} {failure : Json.Failure} (hread : tree.Reads path (.ok text))
      (hparse : ofText text = .error failure) :
      Loads tree ofText path (.error (.malformed path text failure))
  | wellFormed {text : String} {a : α} (hread : tree.Reads path (.ok text))
      (hparse : ofText text = .ok a) : Loads tree ofText path (.ok a)

/-- What a tree shows decides what is loaded. -/
theorem Loads.load_eq (h : tree.Loads ofText path outcome) :
    load ofText tree.readText path = outcome := by
  cases h with
  | unreadable hread => exact load_of_unreadable hread.readText_eq
  | malformed hread hparse => exact load_of_malformed hread.readText_eq hparse
  | wellFormed hread hparse => exact load_of_wellFormed hread.readText_eq hparse

/-- Loading comes to something for every path. -/
theorem exists_loads (tree : FileTree) (ofText : String → Json.Outcome α) (path : String) :
    ∃ outcome, tree.Loads ofText path outcome := by
  obtain ⟨read, hread⟩ := tree.exists_reads path
  cases read with
  | error error => exact ⟨_, .unreadable hread⟩
  | ok text =>
      cases hparse : ofText text with
      | error failure => exact ⟨_, .malformed hread hparse⟩
      | ok a => exact ⟨_, .wellFormed hread hparse⟩

/-- Loading comes to one of the three and to nothing else. -/
theorem loads_iff : tree.Loads ofText path outcome ↔ load ofText tree.readText path = outcome := by
  refine ⟨Loads.load_eq, ?_⟩
  rintro rfl
  obtain ⟨outcome, hloads⟩ := tree.exists_loads ofText path
  rwa [hloads.load_eq]

end FileTree

end ProtocolCodec
