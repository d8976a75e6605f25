/-! The words of an identifier. A word may carry type arguments, each again a list of words, and an
array rank: `list<user_id>[]` is the word `list` with one argument of two words and the rank
`[]`. -/
namespace TypeLoom.Name

inductive Casing where
  | pascal
  | camel
  | snake
  | kebab
deriving DecidableEq, Repr

/-- Where an identifier will stand. -/
inductive Position where
  /-- The name of a type: the keyword of a primitive type keeps its spelling. -/
  | declaration
  /-- The name of a property, an enum member or a constant. -/
  | member
deriving DecidableEq, Repr

inductive Word where
  | mk (base : String) (rank : Option String) (arguments : List (List Word))

def Word.base : Word → String
  | mk base _ _ => base

def Word.rank : Word → Option String
  | mk _ rank _ => rank

def Word.arguments : Word → List (List Word)
  | mk _ _ arguments => arguments

def Casing.label : Casing → String
  | pascal => "pascal"
  | camel => "camel"
  | snake => "snake"
  | kebab => "kebab"

def Casing.all : List Casing :=
  [pascal, camel, snake, kebab]

def Casing.ofLabel? (label : String) : Option Casing :=
  all.find? fun casing => casing.label == label

@[simp] theorem Casing.ofLabel?_label (casing : Casing) : ofLabel? casing.label = some casing := by
  cases casing <;> decide

end TypeLoom.Name
