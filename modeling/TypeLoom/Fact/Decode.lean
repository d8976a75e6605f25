import TypeLoom.Fact.Basic
import TypeLoom.Json.Reader
import TypeLoom.Json.Record

/-! Facts from JSON values and from JSON texts. The description of a type is taken as a whole:
everything in it must have a value and it may not be nested too deeply, unknown fields included.
Texts have a limit on nesting and values have none; values insist on an object where a constant is
described. -/
namespace TypeLoom.Fact
open Json (text? bool? natUpTo? double? list? choice? slots? required? defaulted? optional?)

def EnumValue.ofJson? (json : Json) : Option EnumValue :=
  match double? json with
  | some value => some (.number value)
  | none => (text? json).map .text

def EnumEntry.ofJson? (json : Json) : Option EnumEntry := do
  match ← slots? ["name", "value"] json with
  | [name, value] =>
    return ⟨← required? text? name, ← optional? EnumValue.ofJson? value⟩
  | _ => none

/-- Labels of type descriptions, in the order of their numbers. -/
def typeLabels : List String :=
  ["primitive", "stringLiteral", "numberLiteral", "booleanLiteral", "enumLiteral", "union", "enum",
   "object", "array", "tuple", "reference", "typeParameter"]

/-- The label that a description carries. Inside another description its number will do. -/
def labelOf? (nested : Bool) : Json → Option String
  | .string label => label
  | .number (some (.int n)) => if nested && 0 ≤ n then typeLabels[n.toNat]? else none
  | _ => none

/-- Label and fields of a description: the label is the field `kind` of an object or the first item
of an array. -/
def taggedParts? (nested : Bool) : Json → Option (String × Json)
  | .object fields =>
    match fields.filter fun field => field.1 == some "kind" with
    | [(_, tag)] => (labelOf? nested tag).map fun label =>
        (label, .object (fields.filter fun field => field.1 != some "kind"))
    | _ => none
  | .array (tag :: items) => (labelOf? nested tag).map fun label => (label, .array items)
  | _ => none

def PropertyFact.ofJson? (type? : Json → Option TypeExpr) (json : Json) : Option PropertyFact := do
  match ← slots? ["name", "type", "optional", "readonly", "arrayDepth", "comment", "initializer"]
      json with
  | [name, type, optional, readonly, arrayDepth, comment, initializer] =>
    return {
      name := ← required? text? name
      type := ← required? type? type
      optional := ← defaulted? false bool? optional
      readonly := ← defaulted? false bool? readonly
      arrayDepth := ← defaulted? 0 (natUpTo? 255) arrayDepth
      comment := ← optional? text? comment
      initializer := ← optional? text? initializer }
  | _ => none

def IndexSignature.ofJson? (type? : Json → Option TypeExpr) (json : Json) :
    Option IndexSignature := do
  match ← slots? ["key", "value"] json with
  | [key, value] =>
    return ⟨← required? (choice? IndexKey.ofLabel?) key, ← required? type? value⟩
  | _ => none

/-- A description by its label and fields, `type?` reading the descriptions in it. -/
def TypeExpr.ofParts? (type? : Json → Option TypeExpr) (label : String) (json : Json) :
    Option TypeExpr := do
  match label with
  | "primitive" => match ← slots? ["name"] json with
    | [name] => return .primitive (← required? (choice? Primitive.ofLabel?) name)
    | _ => none
  | "stringLiteral" => match ← slots? ["value"] json with
    | [value] => return .stringLiteral (← required? text? value)
    | _ => none
  | "numberLiteral" => match ← slots? ["value"] json with
    | [value] => return .numberLiteral (← required? double? value)
    | _ => none
  | "booleanLiteral" => match ← slots? ["value"] json with
    | [value] => return .booleanLiteral (← required? bool? value)
    | _ => none
  | "enumLiteral" => match ← slots? ["enumName", "member", "value"] json with
    | [enumName, member, value] =>
      return .enumLiteral (← optional? text? enumName) (← required? text? member)
        (← optional? EnumValue.ofJson? value)
    | _ => none
  | "union" => match ← slots? ["members"] json with
    | [members] => return .union (← required? (list? type?) members)
    | _ => none
  | "enum" => match ← slots? ["members"] json with
    | [members] => return .enumeration (← required? (list? EnumEntry.ofJson?) members)
    | _ => none
  | "object" => match ← slots? ["properties", "indexSignatures"] json with
    | [properties, signatures] =>
      return .object (← defaulted? [] (list? (PropertyFact.ofJson? type?)) properties)
        (← defaulted? [] (list? (IndexSignature.ofJson? type?)) signatures)
    | _ => none
  | "array" => match ← slots? ["element"] json with
    | [element] => return .array (← required? type? element)
    | _ => none
  | "tuple" => match ← slots? ["elements"] json with
    | [elements] => return .tuple (← required? (list? type?) elements)
    | _ => none
  | "reference" => match ← slots? ["name", "originId", "typeArguments"] json with
    | [name, origin, arguments] =>
      return .reference (← required? text? name) (← optional? text? origin)
        (← defaulted? [] (list? type?) arguments)
    | _ => none
  | "typeParameter" => match ← slots? ["name"] json with
    | [name] => return .parameter (← required? text? name)
    | _ => none
  | _ => none

/-- A description nested in others no deeper than `level`. -/
def TypeExpr.ofNested? : (level : Nat) → (nested : Bool) → Json → Option TypeExpr
  | 0, _, _ => none
  | level + 1, nested, json => do
    let (label, fields) ← taggedParts? nested json
    TypeExpr.ofParts? (TypeExpr.ofNested? level true) label fields

/-- A description with at most `depth` arrays and objects inside one another. -/
def TypeExpr.ofJson? (depth : Nat) (json : Json) : Option TypeExpr :=
  if json.isSound depth then TypeExpr.ofNested? depth false json else none

def TypeParameter.ofJson? (depth : Nat) (json : Json) : Option TypeParameter := do
  match ← slots? ["name", "default"] json with
  | [name, default] =>
    return ⟨← required? text? name, ← optional? (TypeExpr.ofJson? (depth - 1)) default⟩
  | _ => none

/-- The form in which facts arrive. -/
inductive Form where
  | value
  | text
  deriving DecidableEq, Repr

/-- What the description of a constant has in the place of each field. Only in a text may it be an
array of its fields. -/
def constantSlots? (form : Form) (json : Json) : Option (List (Option Json)) :=
  match form, json with
  | .value, .array _ => none
  | _, json => slots? ["initializer", "declared"] json

def Body.ofJson? (form : Form) (depth : Nat) : Json → Option Body
  | .object [(some "type", described)] => (TypeExpr.ofJson? (depth - 1) described).map .type
  | .object [(some "constant", described)] => do
    match ← constantSlots? form described with
    | [initializer, declared] =>
      return .constant (← required? text? initializer)
        (← optional? (TypeExpr.ofJson? (depth - 2)) declared)
    | _ => none
  | _ => none

def ofJson? (form : Form) (depth : Nat) (json : Json) : Option Fact := do
  match ← slots? ["name", "originId", "level", "isPublic", "internal", "render", "comment",
      "typeParameters", "body"] json with
  | [name, origin, level, isPublic, internal, render, comment, typeParameters, body] =>
    return {
      name := ← required? text? name
      origin := ← optional? text? origin
      level := ← defaulted? 0 (natUpTo? 0xFFFFFFFF) level
      isPublic := ← defaulted? false bool? isPublic
      internal := ← defaulted? false bool? internal
      render := ← optional? bool? render
      comment := ← optional? text? comment
      typeParameters :=
        ← defaulted? [] (list? (TypeParameter.ofJson? (depth - 2))) typeParameters
      body := ← required? (Body.ofJson? form (depth - 1)) body }
  | _ => none

/-- A list of facts with at most `depth` arrays and objects inside one another, where that counts.
-/
def listWithin? (form : Form) (depth : Nat) (json : Json) : Option (List Fact) :=
  list? (ofJson? form (depth - 1)) json

/-- The facts that a JSON value holds. -/
def listOfJson? (json : Json) : Option (List Fact) :=
  listWithin? .value json.depth json

/-- Texts may not be nested more deeply. -/
def maxTextDepth : Nat := 127

/-- The facts that a JSON text holds. -/
def read? (text : String) : Option (List Fact) :=
  (Json.read? text).bind (listWithin? .text maxTextDepth)

end TypeLoom.Fact
