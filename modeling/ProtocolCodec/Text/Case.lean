import ProtocolCodec.Text.Case.Upper
import ProtocolCodec.Text.Case.Lower

/-!
# Letter case, one character at a time

The case maps take a character to a list, because some images are longer than one character. They
never look at the neighbours of the character. On ASCII they are the usual letter maps.
-/

namespace ProtocolCodec.Text

/-- The image of a character beyond ASCII under a pair of case tables. -/
def caseImage (runs : List Run) (expansions : List (Nat × List Nat)) (c : Char) : List Char :=
  match expansions.lookup c.toNat with
  | some image => image.map Char.ofNat
  | none =>
      match runs.find? (·.holds c.toNat) with
      | some run => [Char.ofNat (run.send c.toNat)]
      | none => [c]

/-- The upper-case image of a character. -/
def upper (c : Char) : List Char :=
  if c.toNat < 0x80 then [c.toUpper] else caseImage upperRuns upperExpansions c

/-- The lower-case image of a character. -/
def lower (c : Char) : List Char :=
  if c.toNat < 0x80 then [c.toLower] else caseImage lowerRuns lowerExpansions c

/-- Whether a character is a capital. -/
def isCapital (c : Char) : Bool :=
  if c.toNat < 0x80 then c.isUpper else capitalRuns.any (·.holds c.toNat)

end ProtocolCodec.Text
