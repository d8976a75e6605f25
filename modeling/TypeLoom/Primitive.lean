/-! Primitive types, and the two kinds of dictionary keys. -/
namespace TypeLoom

inductive Primitive where
  | string
  | number
  | boolean
  | object
  | any
  | null
  | undefined
  | unknown
deriving DecidableEq, Repr

namespace Primitive

def label : Primitive → String
  | string => "string"
  | number => "number"
  | boolean => "boolean"
  | object => "object"
  | any => "any"
  | null => "null"
  | undefined => "undefined"
  | unknown => "unknown"

def all : List Primitive :=
  [string, number, boolean, object, any, null, undefined, unknown]

def ofLabel? (label : String) : Option Primitive :=
  all.find? fun kind => kind.label == label

@[simp] theorem ofLabel?_label (kind : Primitive) : ofLabel? kind.label = some kind := by
  cases kind <;> decide

/-- The kinds that only say that a value may be missing. -/
def isNullish : Primitive → Bool
  | null | undefined => true
  | _ => false

end Primitive

inductive IndexKey where
  | string
  | number
deriving DecidableEq, Repr

namespace IndexKey

def label : IndexKey → String
  | string => "string"
  | number => "number"

def ofLabel? (label : String) : Option IndexKey :=
  [string, number].find? fun key => key.label == label

@[simp] theorem ofLabel?_label (key : IndexKey) : ofLabel? key.label = some key := by
  cases key <;> decide

end IndexKey

end TypeLoom
