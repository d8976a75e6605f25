/-! Text as lists of characters: sets of code points as short lists of arithmetic runs, blank
characters (the property White_Space) and trimming, and the pieces between separators. The tables of
this folder are lists of runs, sorted by first code point. -/
namespace TypeLoom.Text

/-- The code points `first, first + step, …, last`. -/
structure Run where
  first : Nat
  last : Nat
  step : Nat

def Run.contains (run : Run) (code : Nat) : Bool :=
  run.first ≤ code && code ≤ run.last && (code - run.first) % run.step == 0

/-- Membership in one of the runs. -/
def inRuns (runs : List Run) (code : Nat) : Bool :=
  runs.any fun run => run.contains code

/-- A run whose members are moved by one distance, `first` going to `target`. -/
structure Move extends Run where
  target : Nat

/-- The image of `code` under the first move that covers it. -/
def moved? : List Move → Nat → Option Nat
  | [], _ => none
  | move :: rest, code =>
    if move.contains code then some (move.target + (code - move.first)) else moved? rest code

def isBlank (c : Char) : Bool :=
  let code := c.toNat
  (0x09 ≤ code && code ≤ 0x0D) || code == 0x20 || code == 0x85 || code == 0xA0 ||
    code == 0x1680 || (0x2000 ≤ code && code ≤ 0x200A) || code == 0x2028 || code == 0x2029 ||
    code == 0x202F || code == 0x205F || code == 0x3000

def trimStart (text : List Char) : List Char :=
  text.dropWhile isBlank

def trimEnd (text : List Char) : List Char :=
  (text.reverse.dropWhile isBlank).reverse

def trim (text : List Char) : List Char :=
  trimEnd (trimStart text)

/-- Nothing is left after trimming. -/
def isBlankText (text : List Char) : Bool :=
  text.all isBlank

/-- Put `c` in front of the first piece. -/
def consHead (c : Char) : List (List Char) → List (List Char)
  | [] => [[c]]
  | piece :: rest => (c :: piece) :: rest

/-- The pieces between the separators; there is always one more piece than separators. -/
def splitAt (separator : Char) : List Char → List (List Char)
  | [] => [[]]
  | c :: rest =>
    if c = separator then [] :: splitAt separator rest else consHead c (splitAt separator rest)

/-- A line ends at a line feed, which takes one carriage return before it along. Text after the
last line feed is a line only if there is some. -/
def lines : List Char → List (List Char)
  | [] => []
  | c :: rest =>
    if c = '\n' then [] :: lines rest
    else if c = '\r' ∧ rest.head? = some '\n' then lines rest
    else consHead c (lines rest)

end TypeLoom.Text
