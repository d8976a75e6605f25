/-! Quoted texts in the notation of TOML: between double quotes with escapes or between apostrophes
as they stand, on one line or, between three quotes, on several. -/
namespace TypeLoom.Settings

def isMargin (c : Char) : Bool :=
  c == ' ' || c == '\t'

def skipMargin (text : List Char) : List Char :=
  text.dropWhile isMargin

/-- Characters that may stand in comments and quotations: no controls but the tab. -/
def isPlain (c : Char) : Bool :=
  c == '\t' || (0x20 ≤ c.toNat && c.toNat != 0x7F)

/-- The text after a line end, if there is one here. -/
def lineEnd? : List Char → Option (List Char)
  | '\n' :: rest => some rest
  | '\r' :: '\n' :: rest => some rest
  | _ => none

/-! ### Quotations -/

def hexDigitOf? (c : Char) : Option Nat :=
  if c.isDigit then some (c.toNat - '0'.toNat)
  else if 'a' ≤ c && c ≤ 'f' then some (c.toNat - 'a'.toNat + 10)
  else if 'A' ≤ c && c ≤ 'F' then some (c.toNat - 'A'.toNat + 10)
  else none

def charOfHexDigits? (digits : List Char) : Option Char := do
  let code := (← digits.mapM hexDigitOf?).foldl (fun acc d => acc * 16 + d) 0
  if code.isValidChar then some (Char.ofNat code) else none

/-- The character of an escape after its backslash, and the text after it. -/
def escape? : List Char → Option (Char × List Char)
  | 'b' :: rest => some ('\x08', rest)
  | 't' :: rest => some ('\t', rest)
  | 'n' :: rest => some ('\n', rest)
  | 'f' :: rest => some ('\x0c', rest)
  | 'r' :: rest => some ('\r', rest)
  | '"' :: rest => some ('"', rest)
  | '\\' :: rest => some ('\\', rest)
  | 'u' :: rest => do
    if rest.length < 4 then none
    return (← charOfHexDigits? (rest.take 4), rest.drop 4)
  | 'U' :: rest => do
    if rest.length < 8 then none
    return (← charOfHexDigits? (rest.take 8), rest.drop 8)
  | _ => none

/-- Text up to a double quote, with escapes. All these readers shorten the text in every step, and
`size` bounds its length. -/
def readBasic : (size : Nat) → List Char → Option (List Char × List Char)
  | 0, _ => none
  | _ + 1, [] => none
  | size + 1, c :: rest => do
    if c = '"' then return ([], rest)
    else if c = '\\' then
      let (escaped, rest) ← escape? rest
      let (chars, after) ← readBasic size rest
      return (escaped :: chars, after)
    else
      if !isPlain c then none
      let (chars, after) ← readBasic size rest
      return (c :: chars, after)

/-- Text up to an apostrophe, as it stands. -/
def readRaw (text : List Char) : Option (List Char × List Char) :=
  let chars := text.takeWhile fun c => c != '\'' && isPlain c
  match text.drop chars.length with
  | '\'' :: after => some (chars, after)
  | _ => none

/-- At the end of a text of several lines: three to five quotes, of which the last three close it
and the others belong to it. Fewer quotes are text, more are an error. -/
def closing? (quote : Char) (text : List Char) : Option (Option (List Char × List Char)) :=
  let count := (text.takeWhile (· == quote)).length
  if count < 3 then some none
  else if count ≤ 5 then some (some (List.replicate (count - 3) quote, text.drop count))
  else none

/-- Pass over margins and line ends. -/
def skipBlankLines : List Char → List Char
  | '\r' :: '\n' :: rest => skipBlankLines rest
  | c :: rest => if isMargin c || c == '\n' then skipBlankLines rest else c :: rest
  | [] => []

/-- Behind a backslash at the end of a line the next lines' margins and empty lines are dropped. -/
def foldedLine? (text : List Char) : Option (List Char) :=
  (lineEnd? (skipMargin text)).map skipBlankLines

/-- Text of several lines with escapes. -/
def readBasicLines : (size : Nat) → List Char → Option (List Char × List Char)
  | 0, _ => none
  | _ + 1, [] => none
  | size + 1, c :: rest => do
    match ← closing? '"' (c :: rest) with
    | some found => return found
    | none =>
      if c = '\\' then
        match foldedLine? rest with
        | some next => readBasicLines size next
        | none =>
          let (escaped, rest) ← escape? rest
          let (chars, after) ← readBasicLines size rest
          return (escaped :: chars, after)
      else
        match lineEnd? (c :: rest) with
        | some next =>
          let (chars, after) ← readBasicLines size next
          return ('\n' :: chars, after)
        | none =>
          if !isPlain c then none
          let (chars, after) ← readBasicLines size rest
          return (c :: chars, after)

/-- Text of several lines as it stands. -/
def readRawLines : (size : Nat) → List Char → Option (List Char × List Char)
  | 0, _ => none
  | _ + 1, [] => none
  | size + 1, c :: rest => do
    match ← closing? '\'' (c :: rest) with
    | some found => return found
    | none =>
      match lineEnd? (c :: rest) with
      | some next =>
        let (chars, after) ← readRawLines size next
        return ('\n' :: chars, after)
      | none =>
        if !isPlain c then none
        let (chars, after) ← readRawLines size rest
        return (c :: chars, after)

/-- A line end right after the opening quotes does not count. -/
def afterOpening (text : List Char) : List Char :=
  (lineEnd? text).getD text

/-- A quoted text of one line. -/
def readLineQuotation? : List Char → Option (String × List Char)
  | '"' :: rest => do
    let (chars, after) ← readBasic rest.length rest
    return (String.ofList chars, after)
  | '\'' :: rest => do
    let (chars, after) ← readRaw rest
    return (String.ofList chars, after)
  | _ => none

/-- A quoted text. -/
def readQuotation? : List Char → Option (String × List Char)
  | '"' :: '"' :: '"' :: rest => do
    let inside := afterOpening rest
    let (chars, after) ← readBasicLines inside.length inside
    return (String.ofList chars, after)
  | '\'' :: '\'' :: '\'' :: rest => do
    let inside := afterOpening rest
    let (chars, after) ← readRawLines inside.length inside
    return (String.ofList chars, after)
  | text => readLineQuotation? text

end TypeLoom.Settings
