import ProtocolCodec.Text.Span

/-!
# Blank characters, trimming and lines

`isBlank` is the Unicode property White_Space. Lines end at a line feed; a carriage return right
before that line feed belongs to the line end, any other one to the line.
-/

namespace ProtocolCodec.Text

/-- The spans of White_Space. -/
def blankSpans : List Span :=
  [⟨0x9, 0xD⟩, ⟨0x20, 0x20⟩, ⟨0x85, 0x85⟩, ⟨0xA0, 0xA0⟩, ⟨0x1680, 0x1680⟩, ⟨0x2000, 0x200A⟩,
   ⟨0x2028, 0x2029⟩, ⟨0x202F, 0x202F⟩, ⟨0x205F, 0x205F⟩, ⟨0x3000, 0x3000⟩]

/-- Whether a character is white space. -/
def isBlank (c : Char) : Bool :=
  inSpans blankSpans c

/-- Drop leading blanks. -/
def trimStart (text : List Char) : List Char :=
  text.dropWhile isBlank

/-- Drop trailing blanks. -/
def trimEnd (text : List Char) : List Char :=
  (text.reverse.dropWhile isBlank).reverse

/-- Drop blanks at both ends. -/
def trim (text : List Char) : List Char :=
  trimEnd (trimStart text)

/-- Drop one carriage return at the end of a line. -/
def dropReturn (line : List Char) : List Char :=
  if line.getLast? = some '\r' then line.dropLast else line

/-- The pieces between line feeds; there is always at least one. -/
def segments : List Char → List (List Char)
  | [] => [[]]
  | c :: rest =>
      if c = '\n' then [] :: segments rest
      else
        match segments rest with
        | [] => [[c]]
        | first :: others => (c :: first) :: others

/-- The lines of a text. A final line feed opens no further line. -/
def lines (text : List Char) : List (List Char) :=
  let pieces := segments text
  let final := pieces.getLast?.getD []
  pieces.dropLast.map dropReturn ++ (if final.isEmpty then [] else [final])

end ProtocolCodec.Text
