import TypeLoom.Literal.Value
import TypeLoom.Text.Alphabetic
import TypeLoom.Text.Basic

/-! Evaluation of an initializer: null, booleans, numbers, strings, templates without
interpolation, and arrays of these. Anything else is refused with its reason. -/
namespace TypeLoom.Literal
open Text (isBlank)

/-- What is left to read and how many characters have been read. -/
structure Cursor where
  offset : Nat
  rest : List Char

namespace Cursor

/-- Go on behind the first `count` characters. -/
def advance (c : Cursor) (count : Nat) : Cursor :=
  ⟨c.offset + count, c.rest.drop count⟩

def skipBlanks (c : Cursor) : Cursor :=
  c.advance (c.rest.takeWhile isBlank).length

/-- Split off the longest run of characters that satisfy `p`. -/
def span (c : Cursor) (p : Char → Bool) : List Char × Cursor :=
  let run := c.rest.takeWhile p
  (run, c.advance run.length)

end Cursor

def isWordChar (c : Char) : Bool :=
  Text.isAlphanumeric c || c == '_' || c == '$' || c == '.'

def wordValue? (word : String) : Option Value :=
  if word = "null" ∨ word = "undefined" then some .null
  else if word = "true" then some (.bool true)
  else if word = "false" then some (.bool false)
  else if word = "NaN" then some (.number Double.nan)
  else if word = "Infinity" then some (.number Double.infinity)
  else none

def readWord (c : Cursor) : Except Error (Value × Cursor) :=
  let (run, after) := c.span isWordChar
  let word := String.ofList run
  match wordValue? word with
  | some value => .ok (value, after)
  | none => .error (.unsupported word)

/-! ### Numbers -/

def isHexDigit (c : Char) : Bool :=
  c.isDigit || ('a' ≤ c && c ≤ 'f') || ('A' ≤ c && c ≤ 'F')

def hexDigitValue (c : Char) : Nat :=
  if c.isDigit then c.toNat - '0'.toNat
  else if 'a' ≤ c then c.toNat - 'a'.toNat + 10
  else c.toNat - 'A'.toNat + 10

def ofHexDigits (digits : List Char) : Nat :=
  digits.foldl (fun acc c => acc * 16 + hexDigitValue c) 0

def ofDigits (digits : List Char) : Nat :=
  digits.foldl (fun acc c => acc * 10 + (c.toNat - '0'.toNat)) 0

/-- Length of the text of a decimal number: digits, points, underscores and exponent marks, a mark
taking a sign after it along. -/
def decimalLength : List Char → Nat
  | [] => 0
  | [c] => if c.isDigit || c == '.' || c == '_' || c == 'e' || c == 'E' then 1 else 0
  | c :: d :: rest =>
    if c == 'e' || c == 'E' then
      if d == '+' || d == '-' then decimalLength rest + 2 else decimalLength (d :: rest) + 1
    else if c.isDigit || c == '.' || c == '_' then decimalLength (d :: rest) + 1
    else 0

/-- The power of ten named by an exponent: an optional sign and digits. -/
def exponent? (text : List Char) : Option Int :=
  let (negative, digits) := match text with
    | '-' :: rest => (true, rest)
    | '+' :: rest => (false, rest)
    | _ => (false, text)
  if digits ≠ [] ∧ digits.all Char.isDigit then
    some (if negative then -(ofDigits digits : Int) else ofDigits digits)
  else none

/-- The number written as digits, perhaps a point, digits and perhaps an exponent, with at least one
digit around the point. -/
def decimal? (negative : Bool) (text : List Char) : Option Double :=
  let whole := text.takeWhile Char.isDigit
  let (fraction, rest) := match text.dropWhile Char.isDigit with
    | '.' :: after => (after.takeWhile Char.isDigit, after.dropWhile Char.isDigit)
    | after => ([], after)
  if whole = [] ∧ fraction = [] then none
  else
    let value (power : Int) :=
      Double.ofDecimal negative (ofDigits (whole ++ fraction)) (power - fraction.length)
    match rest with
    | [] => some (value 0)
    | mark :: after =>
      if mark = 'e' ∨ mark = 'E' then (exponent? after).map value else none

/-- Text between two places of the same reading. -/
def textBetween (start stop : Cursor) : String :=
  String.ofList (start.rest.take (stop.offset - start.offset))

/-- Hexadecimal digits after `0x`, with underscores between them; 63 bits at most. -/
def readHex (start : Cursor) (negative : Bool) (c : Cursor) : Except Error (Value × Cursor) :=
  let (run, after) := c.span fun d => isHexDigit d || d == '_'
  let digits := run.filter (· ≠ '_')
  let size := ofHexDigits digits
  if digits = [] ∨ 0x8000000000000000 ≤ size then .error (.invalidNumber (textBetween start after))
  else .ok (.number (Double.nearest negative size 1), after)

def readInfinity (start : Cursor) (negative : Bool) (c : Cursor) :
    Except Error (Value × Cursor) := do
  let (value, after) ← readWord c
  match value with
  | .number x =>
    if x.isInfinite then .ok (.number (if negative then x.neg else x), after)
    else .error (.invalidNumber (textBetween start after))
  | _ => .error (.invalidNumber (textBetween start after))

def readDecimal (start : Cursor) (negative : Bool) (c : Cursor) : Except Error (Value × Cursor) :=
  let after := c.advance (decimalLength c.rest)
  let digits := (c.rest.take (decimalLength c.rest)).filter (· ≠ '_')
  match decimal? negative digits with
  | some x => .ok (.number x, after)
  | none => .error (.invalidNumber (textBetween start after))

def readNumber (start : Cursor) : Except Error (Value × Cursor) :=
  let (negative, c) := match start.rest with
    | '-' :: _ => (true, start.advance 1)
    | '+' :: _ => (false, start.advance 1)
    | _ => (false, start)
  match c.rest with
  | '0' :: 'x' :: _ | '0' :: 'X' :: _ => readHex start negative (c.advance 2)
  | 'I' :: _ => readInfinity start negative c
  | _ => readDecimal start negative c

/-! ### Strings -/

/-- The character of a code written in hexadecimal, perhaps with a plus sign in front. Codes of
surrogates and beyond the last plane have none. -/
def charOfHex? (text : List Char) : Option Char :=
  let digits := match text with
    | '+' :: rest => rest
    | _ => text
  if digits ≠ [] ∧ digits.all isHexDigit ∧ (ofHexDigits digits).isValidChar then
    some (Char.ofNat (ofHexDigits digits))
  else none

def letterEscape? (c : Char) : Option Char :=
  match c with
  | 'n' => some '\n'
  | 't' => some '\t'
  | 'r' => some '\r'
  | '0' => some '\x00'
  | 'b' => some '\x08'
  | 'f' => some '\x0c'
  | 'v' => some '\x0b'
  | '\\' | '\'' | '"' | '\x60' | '$' | '/' => some c
  | _ => none

/-- `width` hexadecimal digits and the text after them. If there are not so many characters left,
the blame goes to `x` whatever the escape was. -/
def readHexEscape (blame : Char) (width : Nat) (text : List Char) :
    Except Error (Char × List Char) :=
  if text.length < width then .error (.invalidEscape 'x')
  else match charOfHex? (text.take width) with
    | some c => .ok (c, text.drop width)
    | none => .error (.invalidEscape blame)

/-- The character of the escape whose backslash has just been read, and the text after it; `start`
is where the string began. -/
def readEscape (start : Nat) : List Char → Except Error (Char × List Char)
  | [] => .error (.unterminatedString start)
  | 'x' :: rest => readHexEscape 'x' 2 rest
  | 'u' :: '\x7b' :: rest =>
    let code := rest.takeWhile (· ≠ '\x7d')
    match rest.dropWhile (· ≠ '\x7d'), charOfHex? code with
    | _ :: after, some c => .ok (c, after)
    | _, _ => .error (.invalidEscape 'u')
  | 'u' :: rest => readHexEscape 'u' 4 rest
  | c :: rest =>
    match letterEscape? c with
    | some escaped => .ok (escaped, rest)
    | none => .error (.invalidEscape c)

/-- The characters of a string up to its closing quote, and the text after it. The text is not
longer than `size`, and every step shortens it. -/
def readQuoted (quote : Char) (start : Nat) : (size : Nat) → List Char →
    Except Error (List Char × List Char)
  | 0, _ => .error (.unterminatedString start)
  | _ + 1, [] => .error (.unterminatedString start)
  | size + 1, c :: rest => do
    if c = quote then .ok ([], rest)
    else if c = '\\' then
      let (escaped, rest) ← readEscape start rest
      let (chars, after) ← readQuoted quote start size rest
      .ok (escaped :: chars, after)
    else if c = '\n' then .error (.unterminatedString start)
    else
      let (chars, after) ← readQuoted quote start size rest
      .ok (c :: chars, after)

/-- The characters of a template up to its closing backtick. Line feeds stand for themselves. -/
def readTemplate (start : Nat) : (size : Nat) → List Char →
    Except Error (List Char × List Char)
  | 0, _ => .error (.unterminatedString start)
  | _ + 1, [] => .error (.unterminatedString start)
  | size + 1, c :: rest => do
    if c = '\x60' then .ok ([], rest)
    else if c = '$' ∧ rest.head? = some '\x7b' then .error .interpolation
    else if c = '\\' then
      let (escaped, rest) ← readEscape start rest
      let (chars, after) ← readTemplate start size rest
      .ok (escaped :: chars, after)
    else
      let (chars, after) ← readTemplate start size rest
      .ok (c :: chars, after)

/-- A string or template with its delimiters, `body` reading what follows the opening one. -/
def readText (c : Cursor)
    (body : (start size : Nat) → List Char → Except Error (List Char × List Char)) :
    Except Error (Value × Cursor) := do
  let inside := c.rest.drop 1
  let (chars, after) ← body c.offset inside.length inside
  .ok (.text (String.ofList chars), ⟨c.offset + (c.rest.length - after.length), after⟩)

/-! ### Values -/

mutual

/-- A value, with blanks in front of it. A text takes at most two steps for each of its characters,
one to enter an array and one for each item. -/
def readValue : (steps : Nat) → Cursor → Except Error (Value × Cursor)
  | 0, _ => .error .empty
  | steps + 1, c =>
    let c := c.skipBlanks
    match c.rest with
    | [] => .error .empty
    | found :: _ =>
      if found = '\'' ∨ found = '"' then readText c (readQuoted found)
      else if found = '\x60' then readText c readTemplate
      else if found = '[' then do
        let (items, after) ← readItems steps (c.advance 1)
        .ok (.array items, after)
      else if found.isDigit || found == '-' || found == '+' || found == '.' then readNumber c
      else if Text.isAlphabetic found || found == '_' || found == '$' then readWord c
      else .error (.unexpected found c.offset)

/-- Items up to the closing bracket; a comma may stand before it. -/
def readItems : (steps : Nat) → Cursor → Except Error (List Value × Cursor)
  | 0, _ => .error .unterminatedArray
  | steps + 1, c => do
    let c := c.skipBlanks
    match c.rest with
    | [] => .error .unterminatedArray
    | ']' :: _ => .ok ([], c.advance 1)
    | _ :: _ =>
      let (item, after) ← readValue steps c
      let after := after.skipBlanks
      match after.rest with
      | [] => .error .unterminatedArray
      | ',' :: _ =>
        let (items, stop) ← readItems steps (after.advance 1)
        .ok (item :: items, stop)
      | ']' :: _ => .ok ([item], after.advance 1)
      | found :: _ => .error (.unexpected found after.offset)

end

/-- Trimmed text without a trailing `as const`. -/
def expression (source : List Char) : List Char :=
  let trimmed := Text.trim source
  let suffix := "as const".toList
  if suffix.isSuffixOf trimmed then Text.trimEnd (trimmed.take (trimmed.length - suffix.length))
  else trimmed

/-- The constant that the source text denotes. -/
def evaluate (source : String) : Except Error Value := do
  let text := expression source.toList
  let (value, after) ← readValue (2 * text.length) ⟨0, text⟩
  let after := after.skipBlanks
  if after.rest = [] then .ok value else .error (.trailingInput (String.ofList after.rest))

end TypeLoom.Literal
