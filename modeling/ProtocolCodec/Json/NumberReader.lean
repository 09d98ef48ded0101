import ProtocolCodec.Json.Failure

/-!
# Reading JSON numbers

Digits are gathered into a significand of 64 bits. Integer digits that no longer fit raise the
exponent instead, fraction digits that no longer fit are dropped. A number without fraction and
exponent whose digits fit is kept as an integer; everything else, and minus zero, is a binary64
number: the significand rounded, then multiplied or divided by a rounded power of ten.

`skipNumber` only checks the grammar.
-/

namespace ProtocolCodec.Json

/-- One more than the greatest significand: `2 ^ 64`. -/
def significandLimit : Nat := 0x10000000000000000

/-- The greatest written exponent that is taken at its value: `2 ^ 31 - 1`. -/
def exponentLimit : Nat := 0x7fffffff

/-- The digits at the front of a text and what follows them. -/
def spanDigits (text : List Char) : List Char × List Char :=
  (text.takeWhile Char.isDigit, text.dropWhile Char.isDigit)

/-- A significand and the power of ten it stands before. -/
structure Gathered where
  significand : Nat
  exponent : Int
deriving DecidableEq, Repr

namespace Gathered

/-- Gather integer digits; from the first that does not fit, each raises the exponent. -/
def integerDigits (g : Gathered) : List Char → Gathered
  | [] => g
  | c :: rest =>
      let grown := 10 * g.significand + Text.digitValue c
      if grown < significandLimit then integerDigits { g with significand := grown } rest
      else { g with exponent := g.exponent + (rest.length + 1) }

/-- Gather fraction digits; from the first that does not fit, all are dropped. -/
def fractionDigits (g : Gathered) : List Char → Gathered
  | [] => g
  | c :: rest =>
      let grown := 10 * g.significand + Text.digitValue c
      if grown < significandLimit then fractionDigits ⟨grown, g.exponent - 1⟩ rest
      else g

/-- The number divided by a power of ten up to `10 ^ 308`. -/
def divideOnce (x : Finite) (exponent : Nat) : Option Finite :=
  (Binary64.powerOfTen exponent).toFinite?.bind fun p => (x.div p).toFinite?

/-- Divide by a power of ten, at most `10 ^ 308` at a time. -/
def divideByPower (x : Finite) (exponent : Nat) : Option Finite :=
  if exponent ≤ 308 then divideOnce x exponent
  else if x.isZero then some x
  else (divideOnce x 308).bind (divideByPower · (exponent - 308))
termination_by exponent

/-- The binary64 number gathered, unless it is too large. -/
def toFinite? (negative : Bool) (g : Gathered) : Option Finite := do
  let x ← (Binary64.ofInt g.significand).toFinite?
  let y ←
    match g.exponent with
    | .ofNat e =>
        if e ≤ 308 then do
          let p ← (Binary64.powerOfTen e).toFinite?
          (x.mul p).toFinite?
        else if x.isZero then some x
        else none
    | .negSucc e => divideByPower x (e + 1)
  return if negative then y.neg else y

end Gathered

/-- The number gathered, as the outcome of reading it. -/
def finishFloat (negative : Bool) (g : Gathered) (rest : List Char) :
    Outcome (Number × List Char) :=
  match g.toFinite? negative with
  | some x => .ok (.float x, rest)
  | none => .error (.here .numberOutOfRange rest)

/-- Gather the digits of an exponent. `none` stands for an exponent beyond the limit, with the text
after the digit that passed it. -/
def exponentDigits (value : Nat) : List Char → Nat ⊕ List Char
  | [] => .inl value
  | c :: rest =>
      if c.isDigit then
        let grown := 10 * value + Text.digitValue c
        if grown ≤ exponentLimit then exponentDigits grown rest else .inr rest
      else .inl value

/-- Read an exponent after its mark. -/
def readExponent (negative : Bool) (g : Gathered) (text : List Char) :
    Outcome (Number × List Char) :=
  let (down, digits) :=
    match text with
    | '+' :: rest => (false, rest)
    | '-' :: rest => (true, rest)
    | _ => (false, text)
  match digits with
  | [] => .error (.here .endInValue [])
  | c :: _ =>
      if !c.isDigit then .error (.next .invalidNumber digits)
      else
        let rest := digits.dropWhile Char.isDigit
        match exponentDigits 0 digits with
        | .inl e =>
            finishFloat negative
              { g with exponent := if down then g.exponent - e else g.exponent + e } rest
        | .inr beyond =>
            if g.significand ≠ 0 ∧ !down then .error (.here .numberOutOfRange beyond)
            else finishFloat negative ⟨0, 0⟩ rest

/-- Read what may follow the digits before and after the point. -/
def readScale (negative : Bool) (g : Gathered) (text : List Char) : Outcome (Number × List Char) :=
  match text with
  | 'e' :: rest => readExponent negative g rest
  | 'E' :: rest => readExponent negative g rest
  | _ => finishFloat negative g text

/-- Read a fraction after its point. -/
def readFraction (negative : Bool) (g : Gathered) (text : List Char) :
    Outcome (Number × List Char) :=
  let (digits, rest) := spanDigits text
  if digits.isEmpty then
    .error (if rest.isEmpty then .here .endInValue [] else .next .invalidNumber rest)
  else readScale negative (g.fractionDigits digits) rest

/-- The integer of a significand that fits, if documents hold it as an integer. -/
def wholeOf? (negative : Bool) (significand : Nat) : Option Whole :=
  if negative then
    if significand = 0 then none else Whole.ofInt? (-(significand : Int))
  else Whole.ofInt? significand

/-- Read what follows the integer digits. -/
def readTail (negative : Bool) (g : Gathered) (text : List Char) : Outcome (Number × List Char) :=
  match text with
  | '.' :: rest => readFraction negative g rest
  | 'e' :: _ => readScale negative g text
  | 'E' :: _ => readScale negative g text
  | _ =>
      if g.exponent = 0 then
        match wholeOf? negative g.significand with
        | some n => .ok (.whole n, text)
        | none => finishFloat negative g text
      else finishFloat negative g text

/-- Read a number after its sign. -/
def readNumber (negative : Bool) (text : List Char) : Outcome (Number × List Char) :=
  match text with
  | [] => .error (.here .endInValue [])
  | c :: rest =>
      if c = '0' then
        match rest with
        | d :: _ =>
            if d.isDigit then .error (.next .invalidNumber rest) else readTail negative ⟨0, 0⟩ rest
        | [] => readTail negative ⟨0, 0⟩ []
      else if c.isDigit then
        let (digits, rest) := spanDigits text
        readTail negative (Gathered.integerDigits ⟨0, 0⟩ digits) rest
      else .error (.next .invalidNumber text)

/-- Pass over an exponent after its mark. -/
def skipExponent (text : List Char) : Outcome (List Char) :=
  let digits :=
    match text with
    | '+' :: rest => rest
    | '-' :: rest => rest
    | _ => text
  match digits with
  | [] => .error (.here .invalidNumber [])
  | c :: _ =>
      if c.isDigit then .ok (digits.dropWhile Char.isDigit)
      else .error (.next .invalidNumber digits)

/-- Pass over what may follow the digits before and after the point. -/
def skipScale (text : List Char) : Outcome (List Char) :=
  match text with
  | 'e' :: rest => skipExponent rest
  | 'E' :: rest => skipExponent rest
  | _ => .ok text

/-- Pass over what follows the integer digits. -/
def skipTail (text : List Char) : Outcome (List Char) :=
  match text with
  | '.' :: rest =>
      let (digits, rest) := spanDigits rest
      if digits.isEmpty then .error (.next .invalidNumber rest) else skipScale rest
  | _ => skipScale text

/-- Pass over a number after its sign. A text that ends inside a number is an invalid number. -/
def skipNumber (text : List Char) : Outcome (List Char) :=
  match text with
  | [] => .error (.here .invalidNumber [])
  | c :: rest =>
      if c = '0' then
        match rest with
        | d :: _ => if d.isDigit then .error (.next .invalidNumber rest) else skipTail rest
        | [] => .ok []
      else if c.isDigit then skipTail (rest.dropWhile Char.isDigit)
      else .error (.next .invalidNumber text)

end ProtocolCodec.Json
