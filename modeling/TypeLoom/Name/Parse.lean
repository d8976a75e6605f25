import TypeLoom.Name.Word
import TypeLoom.Text.Basic

/-! From a normal identifier to its words. Separators count outside angle brackets only, and text
with unbalanced brackets stays in the base of its word, so that nothing is lost. -/
namespace TypeLoom.Name
open Text (consHead isBlank)

/-- Cut at `separator` where no angle bracket is open; a stray closing bracket opens nothing. -/
def splitOutside (separator : Char) : Nat → List Char → List (List Char)
  | _, [] => [[]]
  | depth, c :: rest =>
    if c = '<' then consHead c (splitOutside separator (depth + 1) rest)
    else if c = '>' then consHead c (splitOutside separator (depth - 1) rest)
    else if c = separator ∧ depth = 0 then [] :: splitOutside separator depth rest
    else consHead c (splitOutside separator depth rest)

/-- Length of the rank groups at the end of a word, read backwards: `done` characters belong to
complete groups and `pending` to a group whose opening bracket has not come yet. -/
def rankSize : (done : Nat) → (pending : Option Nat) → (backwards : List Char) → Nat
  | done, _, [] => done
  | done, none, c :: rest => if c = ']' then rankSize done (some 1) rest else done
  | done, some size, c :: rest =>
    if c = '[' then rankSize (done + size + 1) none rest
    else if c = ',' || isBlank c then rankSize done (some (size + 1)) rest
    else done

/-- Split off the rank groups at the end. A word of rank groups only is a base. -/
def splitRank (word : List Char) : List Char × Option (List Char) :=
  let size := rankSize 0 none word.reverse
  let cut := word.length - size
  if size = 0 ∨ cut = 0 then (word, none) else (word.take cut, some (word.drop cut))

/-- Text up to the bracket that closes the one already open, and the text after it. -/
def closeBracket : (depth : Nat) → List Char → Option (List Char × List Char)
  | _, [] => none
  | depth, c :: rest =>
    if c = '>' then
      match depth with
      | 0 => some ([], rest)
      | depth + 1 => (closeBracket depth rest).map fun (inner, after) => (c :: inner, after)
    else
      (closeBracket (if c = '<' then depth + 1 else depth) rest).map
        fun (inner, after) => (c :: inner, after)

/-- The first argument list of a word: text before it, inside it and after it. -/
def splitArguments (head : List Char) : Option (List Char × List Char × List Char) :=
  match head.dropWhile (· ≠ '<') with
  | [] => none
  | _ :: rest => (closeBracket 0 rest).map fun (inner, after) =>
      (head.takeWhile (· ≠ '<'), inner, after)

def parseWord (parse : List Char → List Word) (word : List Char) : Word :=
  let (head, rank) := splitRank word
  match splitArguments head with
  | none => ⟨String.ofList head, rank.map String.ofList, []⟩
  | some (before, inner, after) =>
    let arguments := ((splitOutside ',' 0 inner).map Text.trim).filter (· ≠ [])
    ⟨String.ofList (before ++ after), rank.map String.ofList, arguments.map parse⟩

/-- Words of a text no longer than `size`. An argument is shorter than its word, so at size zero
there is no text left. -/
def parseWithin : (size : Nat) → List Char → List Word
  | 0, _ => []
  | size + 1, text =>
    ((splitOutside '_' 0 text).filter (· ≠ [])).map (parseWord (parseWithin size))

def parseChars (text : List Char) : List Word :=
  parseWithin text.length text

def parse (normal : String) : List Word :=
  parseChars normal.toList

end TypeLoom.Name
