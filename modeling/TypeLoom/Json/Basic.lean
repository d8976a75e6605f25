import TypeLoom.Number.Double

/-! JSON documents as they are written. Fields keep their order and may repeat. A number too large
for a double and text with half a surrogate pair are well-formed, so a document may hold them; they
have no value, and matter only to a reader who takes them. -/
namespace TypeLoom

/-- Integers from -2^63 to 2^64-1 stay integers; minus zero and all other numbers are doubles. -/
inductive Json.Number where
  | int (n : Int)
  | double (x : Double)
deriving DecidableEq, Repr

inductive Json where
  | null
  | bool (value : Bool)
  | number (value : Option Json.Number)
  | string (value : Option String)
  | array (items : List Json)
  | object (fields : List (Option String × Json))

namespace Json

def ofString (text : String) : Json := .string (some text)
def ofInt (n : Int) : Json := .number (some (.int n))

/-- JSON has only finite numbers; the others are written as null. -/
def ofDouble (x : Double) : Json :=
  if x.isFinite then .number (some (.double x)) else .null

/-- An object of distinct fields. -/
def ofFields (fields : List (String × Json)) : Json :=
  .object (fields.map fun (key, value) => (some key, value))

def ofOption (encode : α → Json) : Option α → Json
  | none => .null
  | some value => encode value

/-- Whether all texts and numbers have a value, and no more than `depth` arrays and objects are
inside one another. -/
def isSound : (depth : Nat) → Json → Bool
  | _, .null => true
  | _, .bool _ => true
  | _, .number value => value.isSome
  | _, .string value => value.isSome
  | 0, .array _ => false
  | 0, .object _ => false
  | depth + 1, .array items => items.all (isSound depth)
  | depth + 1, .object fields => fields.all fun (key, value) => key.isSome && isSound depth value

end Json

end TypeLoom
