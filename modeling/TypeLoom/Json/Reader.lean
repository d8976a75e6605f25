import TypeLoom.Json.Basic
import TypeLoom.Number.Scaled

/-! Reading JSON text, strictly: no comments, no trailing commas, no raw control characters in
strings, nothing but blanks after the document. -/
namespace TypeLoom.Json

def isSpace (c : Char) : Bool :=
  c == ' ' || c == '\t' || c == '\n' || c == '\r'

def skipSpace (text : List Char) : List Char :=
  text.dropWhile isSpace

def hexValue? (c : Char) : Option Nat :=
  if c.isDigit then some (c.toNat - '0'.toNat)
  else if 'a' ≤ c && c ≤ 'f' then some (c.toNat - 'a'.toNat + 10)
  else if 'A' ≤ c && c ≤ 'F' then some (c.toNat - 'A'.toNat + 10)
  else none

def hexValues? (cs : List Char) : Option Nat :=
  cs.foldl (fun acc c => do return (← acc) * 16 + (← hexValue? c)) (some 0)

def simpleEscape? (c : Char) : Option Char :=
  match c with
  | '"' | '\\' | '/' => some c
  | 'b' => some '\x08'
  | 'f' => some '\x0c'
  | 'n' => some '\n'
  | 'r' => some '\r'
  | 't' => some '\t'
  | _ => none

/-- The code points and surrogate halves of a string up to its closing quote, and the text after
the quote. -/
def readUnits : List Char → Option (List Nat × List Char)
  | [] => none
  | '"' :: rest => some ([], rest)
  | '\\' :: 'u' :: a :: b :: c :: d :: rest => do
    let unit ← hexValues? [a, b, c, d]
    let (units, after) ← readUnits rest
    return (unit :: units, after)
  | '\\' :: c :: rest => do
    let escaped ← simpleEscape? c
    let (units, after) ← readUnits rest
    return (escaped.toNat :: units, after)
  | c :: rest => do
    if c.toNat < 0x20 then none
    let (units, after) ← readUnits rest
    return (c.toNat :: units, after)

/-- Join surrogate pairs; a half that stands alone has no character. -/
def joinUnits : List Nat → Option (List Char)
  | [] => some []
  | unit :: rest =>
    if 0xD800 ≤ unit && unit < 0xDC00 then
      match rest with
      | low :: rest =>
        if 0xDC00 ≤ low && low < 0xE000 then
          (joinUnits rest).map
            (Char.ofNat (0x10000 + (unit - 0xD800) * 0x400 + (low - 0xDC00)) :: ·)
        else none
      | [] => none
    else if 0xDC00 ≤ unit && unit < 0xE000 then none
    else (joinUnits rest).map (Char.ofNat unit :: ·)

/-- The text of a string after its opening quote. -/
def readString (text : List Char) : Option (Option String × List Char) := do
  let (units, after) ← readUnits text
  return ((joinUnits units).map String.ofList, after)

def digitValues (digits : List Char) : List Nat :=
  digits.map fun c => c.toNat - '0'.toNat

def spanDigits (text : List Char) : List Char × List Char :=
  (text.takeWhile Char.isDigit, text.dropWhile Char.isDigit)

/-- Decimal exponent, positive or not, by its digits. -/
structure Exponent where
  positive : Bool
  digits : List Nat

/-- Exponents have 31 bits. -/
def maxExponent : Nat := 0x7FFFFFFF

/-- The value of a number written with digits before the point, perhaps a fraction and perhaps an
exponent. -/
def numberValue? (negative : Bool) (whole fraction : List Nat) (exponent : Option Exponent) :
    Option Number := do
  let (head, dropped) := Double.takeDigits 0 whole
  if fraction = [] ∧ exponent.isNone ∧ dropped = [] then
    if !negative then return .int head
    if 1 ≤ head ∧ head ≤ 0x8000000000000000 then return .int (-head)
  let (significand, unused) := Double.takeDigits head fraction
  let scale : Int := (dropped.length : Int) - (fraction.length - unused.length : Nat)
  let size ← match exponent with
    | none => Double.scaled? significand scale
    | some ⟨positive, digits⟩ =>
      let power := digits.foldl (fun acc d => min (maxExponent + 1) (acc * 10 + d)) 0
      if maxExponent < power then
        if positive ∧ significand ≠ 0 then none else some Double.zero
      else Double.scaled? significand (if positive then scale + power else scale - power)
  return .double (if negative then size.neg else size)

def readExponent (text : List Char) : Option (Exponent × List Char) :=
  let (positive, rest) := match text with
    | '+' :: rest => (true, rest)
    | '-' :: rest => (false, rest)
    | _ => (true, text)
  match spanDigits rest with
  | ([], _) => none
  | (digits, after) => some (⟨positive, digitValues digits⟩, after)

/-- A number without its sign: no superfluous zero in front, digits on both sides of a point. -/
def readNumber (negative : Bool) (text : List Char) : Option (Option Number × List Char) := do
  let (whole, rest) := spanDigits text
  if whole = [] ∨ (whole.head? = some '0' ∧ whole ≠ ['0']) then none
  let (fraction, rest) ← match rest with
    | '.' :: rest =>
      match spanDigits rest with
      | ([], _) => none
      | (digits, after) => some (digits, after)
    | _ => some ([], rest)
  let (exponent, rest) ← match rest with
    | 'e' :: rest | 'E' :: rest => (readExponent rest).map fun (e, after) => (some e, after)
    | _ => some (none, rest)
  return (numberValue? negative (digitValues whole) (digitValues fraction) exponent, rest)

mutual

/-- A value and the text after it. Every bracket takes two steps, so twice the length of the text is
enough. -/
def readValue : (steps : Nat) → List Char → Option (Json × List Char)
  | 0, _ => none
  | steps + 1, text =>
    match skipSpace text with
    | 'n' :: 'u' :: 'l' :: 'l' :: rest => some (.null, rest)
    | 't' :: 'r' :: 'u' :: 'e' :: rest => some (.bool true, rest)
    | 'f' :: 'a' :: 'l' :: 's' :: 'e' :: rest => some (.bool false, rest)
    | '"' :: rest => (readString rest).map fun (value, after) => (.string value, after)
    | '-' :: rest => (readNumber true rest).map fun (value, after) => (.number value, after)
    | '[' :: rest =>
      match skipSpace rest with
      | ']' :: after => some (.array [], after)
      | inner => (readItems steps inner).map fun (items, after) => (.array items, after)
    | '\x7b' :: rest =>
      match skipSpace rest with
      | '\x7d' :: after => some (.object [], after)
      | inner => (readFields steps inner).map fun (fields, after) => (.object fields, after)
    | inner => (readNumber false inner).map fun (value, after) => (.number value, after)

/-- One or more items up to the closing bracket. -/
def readItems : (steps : Nat) → List Char → Option (List Json × List Char)
  | 0, _ => none
  | steps + 1, text => do
    let (item, rest) ← readValue steps text
    match skipSpace rest with
    | ']' :: after => return ([item], after)
    | ',' :: rest =>
      let (items, after) ← readItems steps rest
      return (item :: items, after)
    | _ => none

/-- One or more fields up to the closing brace. -/
def readFields : (steps : Nat) → List Char → Option (List (Option String × Json) × List Char)
  | 0, _ => none
  | steps + 1, text => do
    match skipSpace text with
    | '"' :: rest =>
      let (key, rest) ← readString rest
      match skipSpace rest with
      | ':' :: rest =>
        let (value, rest) ← readValue steps rest
        match skipSpace rest with
        | '\x7d' :: after => return ([(key, value)], after)
        | ',' :: rest =>
          let (fields, after) ← readFields steps rest
          return ((key, value) :: fields, after)
        | _ => none
      | _ => none
    | _ => none

end

/-- The document that the text is, if it is one. -/
def read? (text : String) : Option Json := do
  let chars := text.toList
  let (value, rest) ← readValue (2 * chars.length + 2) chars
  if skipSpace rest = [] then return value else none

end TypeLoom.Json
