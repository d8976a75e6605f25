import TypeLoom.Json.Basic

/-! Taking typed values out of JSON. A record is an object, in which unknown fields are passed over
and known ones may not repeat, or an array of its fields in their order, in which the last ones may
be left out. -/
namespace TypeLoom.Json

def text? : Json → Option String
  | .string value => value
  | _ => none

def bool? : Json → Option Bool
  | .bool value => some value
  | _ => none

/-- An integer from 0 to `max`. -/
def natUpTo? (max : Nat) : Json → Option Nat
  | .number (some (.int n)) => if 0 ≤ n ∧ n ≤ max then some n.toNat else none
  | _ => none

/-- Any number; integers are rounded. -/
def double? : Json → Option Double
  | .number (some (.int n)) => some (Double.ofInt n)
  | .number (some (.double x)) => some x
  | _ => none

def list? (decode : Json → Option α) : Json → Option (List α)
  | .array items => items.mapM decode
  | _ => none

/-- Null or a value. -/
def nullable? (decode : Json → Option α) : Json → Option (Option α)
  | .null => some none
  | json => (decode json).map some

/-- A choice by its label. It may be written as an object with the label as only field, over
nothing. -/
def choice? (ofLabel? : String → Option α) : Json → Option α
  | .string (some label) => ofLabel? label
  | .object [(some label, .null)] => ofLabel? label
  | .object [(some label, .object [])] => ofLabel? label
  | _ => none

/-- The value of a field, if it occurs; a repeated field is refused. -/
def slot? (fields : List (Option String × Json)) (name : String) : Option (Option Json) :=
  match fields.filter fun field => field.1 == some name with
  | [] => some none
  | [(_, value)] => some (some value)
  | _ => none

/-- What a record has in the place of each of its fields. -/
def slots? (names : List String) : Json → Option (List (Option Json))
  | .object fields =>
    if fields.all fun field => field.1.isSome then names.mapM (slot? fields) else none
  | .array items =>
    if items.length ≤ names.length then
      some (items.map some ++ List.replicate (names.length - items.length) none)
    else none
  | _ => none

/-- A field that must be there. -/
def required? (decode : Json → Option α) (slot : Option Json) : Option α :=
  slot.bind decode

/-- A field with a default. -/
def defaulted? (default : α) (decode : Json → Option α) : Option Json → Option α
  | none => some default
  | some json => decode json

/-- A field that may be null or missing. -/
def optional? (decode : Json → Option α) : Option Json → Option (Option α) :=
  defaulted? none (nullable? decode)

mutual

/-- The greatest number of arrays and objects inside one another. -/
def depth : Json → Nat
  | .array items => depthOfItems items + 1
  | .object fields => depthOfFields fields + 1
  | .null | .bool _ | .number _ | .string _ => 0

def depthOfItems : List Json → Nat
  | [] => 0
  | item :: rest => max item.depth (depthOfItems rest)

def depthOfFields : List (Option String × Json) → Nat
  | [] => 0
  | (_, value) :: rest => max value.depth (depthOfFields rest)

end

end TypeLoom.Json
