/-!
# File paths

A path is a text; slashes divide it into pieces. Empty pieces and single dots lead nowhere, except
that a dot at the very front of a relative path counts as a step of its own.
-/

namespace ProtocolCodec.Files

/-- The pieces of a text between slashes; there is always at least one. -/
def splitSlashes : List Char → List (List Char)
  | [] => [[]]
  | c :: rest =>
      if c = '/' then [] :: splitSlashes rest
      else
        match splitSlashes rest with
        | [] => [[c]]
        | first :: others => (c :: first) :: others

/-- The pieces of a path. -/
def pieces (path : String) : List String :=
  (splitSlashes path.toList).map String.ofList

/-- Whether a path starts at the root. -/
def isAbsolute (path : String) : Bool :=
  path.toList.head? == some '/'

/-- Whether a piece stays where it is. -/
def isIdle (piece : String) : Bool :=
  piece == "" || piece == "."

/-- What stands before the first proper piece of a path: a slash, a leading dot or nothing. -/
def splitLead : List Char → List Char × List Char
  | '/' :: rest => (['/'], rest)
  | ['.'] => (['.'], [])
  | '.' :: '/' :: rest => (['.'], '/' :: rest)
  | path => ([], path)

/-- Drop idle pieces at the end. -/
def dropIdle (pieces : List String) : List String :=
  (pieces.reverse.dropWhile isIdle).reverse

/-- The path without its last step, if it has one. -/
def parent? (path : String) : Option String :=
  let (lead, body) := splitLead path.toList
  match dropIdle (pieces (String.ofList body)) with
  | [] => if lead = ['.'] then some "" else none
  | steps => some (String.ofList lead ++ "/".intercalate (dropIdle steps.dropLast))

/-- A path and its parents, no more than a number of them. -/
def ancestorsWithin : Nat → String → List String
  | 0, _ => []
  | count + 1, path =>
      path :: (match parent? path with
        | some parent => ancestorsWithin count parent
        | none => [])

/-- A path and its parents. Each parent is shorter than its child. -/
def ancestors (path : String) : List String :=
  ancestorsWithin (path.length + 1) path

end ProtocolCodec.Files
