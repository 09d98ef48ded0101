import ProtocolCodec.Json.Failure

/-!
# Reading JSON strings

`readString` reads what follows an opening quote. Surrogate escapes have to come in pairs, and
controls have to be escaped. `skipString` passes over a string whose content does not matter: it
checks the form of the escapes, not what they stand for.
-/

namespace ProtocolCodec.Json

/-- The value of a hexadecimal digit of either case. -/
def hexDigit? (c : Char) : Option Nat :=
  if c.isDigit then some (c.toNat - 0x30)
  else if 'a' ≤ c ∧ c ≤ 'f' then some (c.toNat - 0x57)
  else if 'A' ≤ c ∧ c ≤ 'F' then some (c.toNat - 0x37)
  else none

/-- The value of four hexadecimal digits. -/
def hexQuad? (a b c d : Char) : Option Nat := do
  let a ← hexDigit? a
  let b ← hexDigit? b
  let c ← hexDigit? c
  let d ← hexDigit? d
  return ((a * 16 + b) * 16 + c) * 16 + d

/-- Read the four digits of a hexadecimal escape. Fewer than four bytes are a text that ends too
early, whatever they are. -/
def readQuad (text : List Char) : Outcome (Nat × List Char) :=
  match text with
  | a :: b :: c :: d :: rest =>
      match hexQuad? a b c d with
      | some unit => .ok (unit, rest)
      | none => .error (.within 4 .invalidEscape text)
  | _ =>
      if byteCount text < 4 then .error (.here .endInString [])
      else .error (.within 4 .invalidEscape text)

/-- Whether a code unit is the first half of a pair. -/
def isLeading (unit : Nat) : Bool :=
  0xD800 ≤ unit && unit ≤ 0xDBFF

/-- Whether a code unit is the second half of a pair. -/
def isTrailing (unit : Nat) : Bool :=
  0xDC00 ≤ unit && unit ≤ 0xDFFF

/-- The character of a pair of code units. -/
def joinUnits (leading trailing : Nat) : Char :=
  Char.ofNat ((leading - 0xD800) * 0x400 + (trailing - 0xDC00) + 0x10000)

/-- Read the second half of a pair after its first half. -/
def readTrailing (leading : Nat) (text : List Char) : Outcome (Char × List Char) :=
  match text with
  | [] => .error (.here .endInString [])
  | ['\\'] => .error (.here .endInString [])
  | '\\' :: 'u' :: rest => do
      let (unit, rest) ← readQuad rest
      if isTrailing unit then .ok (joinUnits leading unit, rest)
      else .error (.here .loneSurrogate rest)
  | '\\' :: rest => .error (.next .unpairedSurrogate rest)
  | _ => .error (.next .unpairedSurrogate text)

/-- The character of an escape by one letter. -/
def shortEscape? (c : Char) : Option Char :=
  if c = '"' ∨ c = '\\' ∨ c = '/' then some c
  else if c = 'b' then some '\x08'
  else if c = 'f' then some '\x0c'
  else if c = 'n' then some '\n'
  else if c = 'r' then some '\r'
  else if c = 't' then some '\t'
  else none

/-- Read an escape after its backslash. -/
def readEscape (text : List Char) : Outcome (Char × List Char) :=
  match text with
  | [] => .error (.here .endInString [])
  | c :: rest =>
      match shortEscape? c with
      | some e => .ok (e, rest)
      | none =>
          if c = 'u' then do
            let (unit, rest) ← readQuad rest
            if isTrailing unit then .error (.here .loneSurrogate rest)
            else if isLeading unit then readTrailing unit rest
            else .ok (Char.ofNat unit, rest)
          else .error (.next .invalidEscape text)

/-- Pass over an escape after its backslash. -/
def skipEscape (text : List Char) : Outcome (List Char) :=
  match text with
  | [] => .error (.here .endInString [])
  | c :: rest =>
      if (shortEscape? c).isSome then .ok rest
      else if c = 'u' then do
        let (_, rest) ← readQuad rest
        .ok rest
      else .error (.next .invalidEscape text)

theorem length_of_readQuad {text : List Char} {unit : Nat} {rest : List Char}
    (h : readQuad text = .ok (unit, rest)) : rest.length < text.length := by
  unfold readQuad at h
  split at h
  · split at h
    · simp only [Except.ok.injEq, Prod.mk.injEq] at h
      simp only [← h.2, List.length_cons]
      omega
    · simp at h
  · split at h <;> simp at h

theorem length_of_readTrailing {leading : Nat} {text : List Char} {c : Char} {rest : List Char}
    (h : readTrailing leading text = .ok (c, rest)) : rest.length < text.length := by
  unfold readTrailing at h
  split at h
  case h_3 body =>
    cases hquad : readQuad body with
    | error f => simp [hquad, bind, Except.bind] at h
    | ok pair =>
        have := length_of_readQuad (show readQuad body = .ok (pair.1, pair.2) from hquad)
        simp only [hquad, bind, Except.bind] at h
        split at h
        · simp only [Except.ok.injEq, Prod.mk.injEq] at h
          simp only [← h.2, List.length_cons]
          omega
        · simp at h
  all_goals simp at h

/-- What reading an escape leaves is shorter than what it was given. -/
theorem length_of_readEscape {text : List Char} {c : Char} {rest : List Char}
    (h : readEscape text = .ok (c, rest)) : rest.length < text.length := by
  unfold readEscape at h
  split at h
  · simp at h
  case h_2 d body =>
    split at h
    · simp only [Except.ok.injEq, Prod.mk.injEq] at h
      simp [← h.2]
    · split at h
      · cases hquad : readQuad body with
        | error f => simp [hquad, bind, Except.bind] at h
        | ok pair =>
            have hshort := length_of_readQuad (show readQuad body = .ok (pair.1, pair.2) from hquad)
            simp only [hquad, bind, Except.bind] at h
            split at h
            · simp at h
            · split at h
              · have := length_of_readTrailing h
                simp only [List.length_cons]
                omega
              · simp only [Except.ok.injEq, Prod.mk.injEq] at h
                simp only [← h.2, List.length_cons]
                omega
      · simp at h

/-- What passing over an escape leaves is shorter than what it was given. -/
theorem length_of_skipEscape {text rest : List Char}
    (h : skipEscape text = .ok rest) : rest.length < text.length := by
  unfold skipEscape at h
  split at h
  · simp at h
  case h_2 d body =>
    split at h
    · simp only [Except.ok.injEq] at h
      simp [← h]
    · split at h
      · cases hquad : readQuad body with
        | error f => simp [hquad, bind, Except.bind] at h
        | ok pair =>
            have := length_of_readQuad (show readQuad body = .ok (pair.1, pair.2) from hquad)
            simp only [hquad, bind, Except.bind, Except.ok.injEq] at h
            simp only [← h, List.length_cons]
            omega
      · simp at h

/-- Read a string after its opening quote, up to and including the closing one. -/
def readString (text : List Char) : Outcome (List Char × List Char) :=
  match text with
  | [] => .error (.here .endInString [])
  | c :: rest =>
      if c = '"' then .ok ([], rest)
      else if c = '\\' then
        match h : readEscape rest with
        | .error f => .error f
        | .ok (e, rest') =>
            have := length_of_readEscape h
            (readString rest').map fun (body, tail) => (e :: body, tail)
      else if c.toNat < 0x20 then .error (.here .controlCharacter rest)
      else (readString rest).map fun (body, tail) => (c :: body, tail)
termination_by text.length
decreasing_by
  · simp only [List.length_cons]
    omega
  · simp

/-- Pass over a string after its opening quote. A control is placed before, not after it. -/
def skipString (text : List Char) : Outcome (List Char) :=
  match text with
  | [] => .error (.here .endInString [])
  | c :: rest =>
      if c = '"' then .ok rest
      else if c = '\\' then
        match h : skipEscape rest with
        | .error f => .error f
        | .ok rest' =>
            have := length_of_skipEscape h
            skipString rest'
      else if c.toNat < 0x20 then .error (.here .controlCharacter text)
      else skipString rest
termination_by text.length
decreasing_by
  · simp only [List.length_cons]
    omega
  · simp

end ProtocolCodec.Json
