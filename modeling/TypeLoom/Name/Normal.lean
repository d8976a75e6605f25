import TypeLoom.Text.Uppercase

/-! Normal form of an identifier: lower case, with an underscore in front of every word that an
uppercase letter began. -/
namespace TypeLoom.Name

/-- After these characters an uppercase letter does not begin a new word. -/
def opensWord (c : Char) : Bool :=
  c == '<' || c == ' ' || c == ',' || c == '-' || c == '_' || c == '.' || c == ':' || c == '/'

/-- The mark in front of an uppercase letter that follows `previous`. -/
def wordMark : Option Char → List Char
  | none => []
  | some c => if opensWord c then [] else ['_']

def lowerFrom : Option Char → List Char → List Char
  | _, [] => []
  | previous, c :: rest =>
    (if Text.isUppercase c then wordMark previous ++ Text.lower c else [c]) ++
      lowerFrom (some c) rest

/-- Hyphen, colon and slash separate words as the underscore does. -/
def foldSeparator (c : Char) : Char :=
  if c == '-' || c == ':' || c == '/' then '_' else c

def normalChars (raw : List Char) : List Char :=
  (lowerFrom none raw).map foldSeparator

def normalize (raw : String) : String :=
  String.ofList (normalChars raw.toList)

end TypeLoom.Name
