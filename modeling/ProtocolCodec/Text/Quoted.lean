import ProtocolCodec.Text.Decimal
import ProtocolCodec.Text.Printable

/-!
# Quoted text

A text between double quotes in which the quote, the backslash and every character without a
printed form of its own are escaped. `decode` reads the escapes back, so a quoted text determines
the text it was made from.
-/

namespace ProtocolCodec.Text.Quoted

/-- How one character is written between quotes. -/
def escape (c : Char) : List Char :=
  if c = '\x00' then ['\\', '0']
  else if c = '\t' then ['\\', 't']
  else if c = '\r' then ['\\', 'r']
  else if c = '\n' then ['\\', 'n']
  else if c = '"' ∨ c = '\\' then ['\\', c]
  else if isPrintable c then [c]
  else ['\\', 'u', '\x7b'] ++ hexadecimal c.toNat ++ ['\x7d']

/-- The quoted form of a text. -/
def encode (text : List Char) : List Char :=
  '"' :: (text.flatMap escape ++ ['"'])

/-- The quoted form of a string. -/
def quote (text : String) : String :=
  String.ofList (encode text.toList)

/-- The value of a lower-case hexadecimal digit. -/
def hexValue? (c : Char) : Option Nat :=
  if c.isDigit then some (c.toNat - 0x30)
  else if 'a' ≤ c ∧ c ≤ 'f' then some (c.toNat - 0x57)
  else none

/-- Read hexadecimal digits up to the closing brace; `value` is what was read so far. -/
def readHex (value : Nat) : List Char → Option (Nat × List Char)
  | [] => none
  | c :: rest =>
      if c = '\x7d' then some (value, rest)
      else
        match hexValue? c with
        | some digit => readHex (16 * value + digit) rest
        | none => none

/-- What reading hexadecimal digits leaves is shorter than what it was given. -/
theorem length_of_readHex {value : Nat} {text : List Char} {n : Nat} {rest : List Char}
    (h : readHex value text = some (n, rest)) : rest.length < text.length := by
  induction text generalizing value with
  | nil => simp [readHex] at h
  | cons c cs ih =>
      rw [readHex] at h
      split at h
      · simp only [Option.some.injEq, Prod.mk.injEq] at h
        simp [← h.2]
      · split at h
        · exact Nat.lt_succ_of_lt (ih h)
        · simp at h

/-- Read one escape after its backslash. -/
def readEscape : List Char → Option (Char × List Char)
  | '0' :: rest => some ('\x00', rest)
  | 't' :: rest => some ('\t', rest)
  | 'r' :: rest => some ('\r', rest)
  | 'n' :: rest => some ('\n', rest)
  | '"' :: rest => some ('"', rest)
  | '\\' :: rest => some ('\\', rest)
  | 'u' :: '\x7b' :: rest => (readHex 0 rest).map fun (point, rest) => (Char.ofNat point, rest)
  | _ => none

/-- What reading an escape leaves is shorter than what it was given. -/
theorem length_of_readEscape {text : List Char} {c : Char} {rest : List Char}
    (h : readEscape text = some (c, rest)) : rest.length < text.length := by
  unfold readEscape at h
  split at h
  case h_7 body =>
    cases hread : readHex 0 body with
    | none => simp [hread] at h
    | some pair =>
        simp only [hread, Option.map_some, Option.some.injEq, Prod.mk.injEq] at h
        have := length_of_readHex (show readHex 0 body = some (pair.1, pair.2) from hread)
        rw [← h.2]
        simp only [List.length_cons]
        omega
  case h_8 => simp at h
  all_goals
    simp only [Option.some.injEq, Prod.mk.injEq] at h
    simp [← h.2]

/-- Read what follows an opening quote: the text up to the closing quote and the rest. -/
def readBody (text : List Char) : Option (List Char × List Char) :=
  match text with
  | [] => none
  | c :: rest =>
      if c = '"' then some ([], rest)
      else if c = '\\' then
        match h : readEscape rest with
        | none => none
        | some (e, rest') =>
            have := length_of_readEscape h
            (readBody rest').map fun (body, tail) => (e :: body, tail)
      else (readBody rest).map fun (body, tail) => (c :: body, tail)
termination_by text.length
decreasing_by
  · simp only [List.length_cons]
    omega
  · simp

/-- Read a quoted text that stands alone. -/
def decode : List Char → Option (List Char)
  | '"' :: rest =>
      match readBody rest with
      | some (body, []) => some body
      | _ => none
  | _ => none

end ProtocolCodec.Text.Quoted
