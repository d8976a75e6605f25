import TypeLoom.Settings.Quotation

/-! Settings documents: lines `key = value` in the notation of TOML. Values are texts in any of the
four quotations, integers in any of the four bases, booleans, and choices. A choice is written as a
table with the label as its only key and nothing under it, in any of the ways to write a table.
Everything else that the notation has is of no use in settings and is refused. -/
namespace TypeLoom.Settings

inductive Value where
  | text (value : String)
  | integer (value : Int)
  | boolean (value : Bool)
  | choice (label : String)
deriving DecidableEq, Repr

/-! ### Integers -/

/-- Digits with single underscores between them, without the underscores. -/
def groupedDigits? (isDigit : Char → Bool) (text : List Char) : Option (List Char) :=
  if text ≠ [] ∧ (text.splitOn '_').all (fun group => group ≠ [] && group.all isDigit) then
    some (text.filter (· ≠ '_'))
  else none

def ofBase (base : Nat) (digits : List Char) : Int :=
  digits.foldl (fun acc c => acc * base + ((hexDigitOf? c).getD 0 : Nat)) 0

def based? (base : Nat) (text : List Char) : Option Int :=
  (groupedDigits? (fun c => (hexDigitOf? c).any (· < base)) text).map (ofBase base)

/-- A decimal without superfluous zeros. -/
def decimal? (text : List Char) : Option Int := do
  let digits ← groupedDigits? Char.isDigit text
  if digits.head? = some '0' ∧ text ≠ ['0'] then none else some (ofBase 10 digits)

/-- An integer of 64 bits. -/
def integer? (text : List Char) : Option Int := do
  let n ← match text with
    | '0' :: 'x' :: digits => based? 16 digits
    | '0' :: 'o' :: digits => based? 8 digits
    | '0' :: 'b' :: digits => based? 2 digits
    | '+' :: digits => decimal? digits
    | '-' :: digits => (decimal? digits).map (- ·)
    | digits => decimal? digits
  if -0x8000000000000000 ≤ n ∧ n < 0x8000000000000000 then some n else none

/-! ### Lines -/

/-- Pass over margin and comment up to the end of the line; nothing else may stand there. -/
def finishLine (text : List Char) : Option (List Char) :=
  let rest := match skipMargin text with
    | '#' :: comment => comment.dropWhile isPlain
    | rest => rest
  match rest with
  | [] => some []
  | _ => lineEnd? rest

/-- Pass over empty lines, comments and a margin. Every line takes a step. -/
def skipEmptyLines : (steps : Nat) → List Char → List Char
  | 0, text => text
  | steps + 1, text =>
    match finishLine text with
    | some [] => []
    | some rest => skipEmptyLines steps rest
    | none => skipMargin text

/-- The text after an empty table or list, if there is one here. Only a list goes over several
lines. -/
def afterNothing? : List Char → Option (List Char)
  | '\x7b' :: rest =>
    match skipMargin rest with
    | '\x7d' :: after => some after
    | _ => none
  | '[' :: rest =>
    match skipEmptyLines rest.length rest with
    | ']' :: after => some after
    | _ => none
  | _ => none

/-- A word ends at a margin, a comment or the end of the line. -/
def isWordEnd (c : Char) : Bool :=
  isMargin c || c == '#' || c == '\n' || c == '\r'

def word? (word : List Char) : Option Value :=
  if word = "true".toList then some (.boolean true)
  else if word = "false".toList then some (.boolean false)
  else (integer? word).map .integer

def isKeyChar (c : Char) : Bool :=
  c.isAlphanum || c == '-' || c == '_'

def readKey (text : List Char) : Option (String × List Char) :=
  match readLineQuotation? text, text.takeWhile isKeyChar with
  | some found, _ => some found
  | none, [] => none
  | none, chars => some (String.ofList chars, text.drop chars.length)

/-- A table on one line with one key and nothing under it. -/
def readChoice : List Char → Option (String × List Char)
  | '\x7b' :: rest => do
    let (label, rest) ← readKey (skipMargin rest)
    match skipMargin rest with
    | '=' :: rest =>
      match skipMargin (← afterNothing? (skipMargin rest)) with
      | '\x7d' :: after => return (label, after)
      | _ => none
    | _ => none
  | _ => none

def readValue (text : List Char) : Option (Value × List Char) :=
  match text.head? with
  | some '"' | some '\'' => (readQuotation? text).map fun (value, after) => (.text value, after)
  | some '\x7b' => (readChoice text).map fun (label, after) => (.choice label, after)
  | _ =>
    let word := text.takeWhile fun c => !isWordEnd c
    (word? word).map fun value => (value, text.drop word.length)

/-- Keys with points between them, and the text after the margin behind them. -/
def readPath : (size : Nat) → List Char → Option (List String × List Char)
  | 0, _ => none
  | size + 1, text => do
    let (key, rest) ← readKey text
    match skipMargin rest with
    | '.' :: rest =>
      let (path, after) ← readPath size (skipMargin rest)
      return (key :: path, after)
    | rest => return ([key], rest)

inductive Line where
  | entry (path : List String) (value : Value)
  /-- An entry with an empty table or list. -/
  | empty (path : List String)
  /-- The head of a table. The lines up to the next head are its content. -/
  | head (path : List String)

/-- A line with something on it, and the text up from its end. -/
def readLine (text : List Char) : Option (Line × List Char) := do
  match text with
  | '[' :: rest =>
    match ← readPath rest.length (skipMargin rest) with
    | (path, ']' :: after) => return (.head path, after)
    | _ => none
  | _ =>
    match ← readPath text.length text with
    | (path, '=' :: rest) =>
      match afterNothing? (skipMargin rest) with
      | some after => return (.empty path, after)
      | none =>
        let (value, after) ← readValue (skipMargin rest)
        return (.entry path value, after)
    | _ => none

/-- The lines of a document. Every line takes a step. -/
def readLines : (steps : Nat) → List Char → Option (List Line)
  | 0, _ => none
  | steps + 1, text => do
    match finishLine text with
    | some [] => return []
    | some rest => readLines steps rest
    | none =>
      let (line, rest) ← readLine (skipMargin text)
      return line :: (← readLines steps (← finishLine rest))

/-! ### Entries -/

/-- What some line says about a key. -/
inductive Part where
  | whole (value : Value)
  /-- The head of the key's table, without content. -/
  | opened
  /-- The head of a table inside the key's table, without content. -/
  | under (label : String)

/-- What the lines say about keys in order. Values may stand at the top, before all heads. -/
def parts? : (top : Bool) → List Line → Option (List (String × Part))
  | _, [] => some []
  | true, .entry [key] value :: rest => do return (key, .whole value) :: (← parts? true rest)
  | true, .empty [key, label] :: rest => do
    return (key, .whole (.choice label)) :: (← parts? true rest)
  | _, .head [key] :: .empty [label] :: rest => do
    return (key, .whole (.choice label)) :: (← parts? false rest)
  | _, .head [key] :: rest => do return (key, .opened) :: (← parts? false rest)
  | _, .head [key, label] :: rest => do return (key, .under label) :: (← parts? false rest)
  | _, _ => none

/-- The value of a key by all that is said about it. The head of a table may stand before or after
that of the table inside it. -/
def valueOf? : List Part → Option Value
  | [.whole value] => some value
  | [.under label] | [.opened, .under label] | [.under label, .opened] => some (.choice label)
  | _ => none

/-- Every key of a document with its value. -/
def entriesOf? (lines : List Line) : Option (List (String × Value)) := do
  let parts ← parts? true lines
  (parts.map Prod.fst).eraseDups.mapM fun key => do
    return (key, ← valueOf? ((parts.filter fun part => part.1 == key).map Prod.snd))

/-- The entries of a document, which may begin with a byte order mark. -/
def entries? (document : String) : Option (List (String × Value)) := do
  let text := match document.toList with
    | '\uFEFF' :: rest => rest
    | text => text
  entriesOf? (← readLines (text.length + 2) text)

end TypeLoom.Settings
