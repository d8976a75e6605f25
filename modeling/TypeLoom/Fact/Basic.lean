import TypeLoom.Number.Double
import TypeLoom.Primitive

/-! Declaration facts: what is known of the declarations to convert. -/
namespace TypeLoom

namespace Fact

inductive EnumValue where
  | number (value : Double)
  | text (value : String)
deriving DecidableEq, Repr

structure EnumEntry where
  name : String
  value : Option EnumValue := none
deriving DecidableEq, Repr

mutual

/-- The description of a type. -/
inductive TypeExpr where
  | primitive (kind : Primitive)
  | stringLiteral (value : String)
  | numberLiteral (value : Double)
  | booleanLiteral (value : Bool)
  | enumLiteral (enumName : Option String) (member : String) (value : Option EnumValue)
  | union (members : List TypeExpr)
  | enumeration (members : List EnumEntry)
  | object (properties : List PropertyFact) (signatures : List IndexSignature)
  | array (element : TypeExpr)
  | tuple (elements : List TypeExpr)
  | reference (name : String) (origin : Option String) (arguments : List TypeExpr)
  | parameter (name : String)

structure PropertyFact where
  name : String
  type : TypeExpr
  optional : Bool := false
  readonly : Bool := false
  arrayDepth : Nat := 0
  comment : Option String := none
  initializer : Option String := none

structure IndexSignature where
  key : IndexKey
  value : TypeExpr

end

namespace TypeExpr

/-- A plain reference. -/
def named (name : String) : TypeExpr := .reference name none []

/-- An object type with one index signature and nothing else. -/
def dictionary (key : IndexKey) (value : TypeExpr) : TypeExpr := .object [] [⟨key, value⟩]

def isNullish : TypeExpr → Bool
  | .primitive kind => kind.isNullish
  | _ => false

def isNumeric : TypeExpr → Bool
  | .primitive .number | .numberLiteral _ => true
  | _ => false

def isTextual : TypeExpr → Bool
  | .primitive .string | .stringLiteral _ => true
  | _ => false

def isBoolean : TypeExpr → Bool
  | .primitive .boolean | .booleanLiteral _ => true
  | _ => false

/-- Types that a type is made of. -/
def parts : TypeExpr → List TypeExpr
  | .union members => members
  | .object properties signatures =>
    properties.map PropertyFact.type ++ signatures.map IndexSignature.value
  | .array element => [element]
  | .tuple elements => elements
  | .reference _ _ arguments => arguments
  | _ => []

theorem sizeOf_lt_of_mem_parts {whole part : TypeExpr} (mem : part ∈ whole.parts) :
    sizeOf part < sizeOf whole := by
  cases whole with
  | union members | tuple members =>
    have small := List.sizeOf_lt_of_mem (show part ∈ members from mem)
    simp only [union.sizeOf_spec, tuple.sizeOf_spec]
    omega
  | reference name origin arguments =>
    have small := List.sizeOf_lt_of_mem (show part ∈ arguments from mem)
    simp only [reference.sizeOf_spec]
    omega
  | array element =>
    rw [List.mem_singleton.mp mem, array.sizeOf_spec]
    omega
  | object properties signatures =>
    simp only [object.sizeOf_spec]
    rcases List.mem_append.mp mem with inside | inside
    · obtain ⟨property, listed, rfl⟩ := List.mem_map.mp inside
      have small := List.sizeOf_lt_of_mem listed
      have smaller : sizeOf property.type < sizeOf property := by
        cases property
        simp only [PropertyFact.mk.sizeOf_spec]
        omega
      omega
    · obtain ⟨signature, listed, rfl⟩ := List.mem_map.mp inside
      have small := List.sizeOf_lt_of_mem listed
      have smaller : sizeOf signature.value < sizeOf signature := by
        cases signature
        simp only [IndexSignature.mk.sizeOf_spec]
        omega
      omega
  | _ => cases mem

theorem induction_parts {motive : TypeExpr → Prop}
    (step : ∀ type, (∀ part ∈ type.parts, motive part) → motive type) (type : TypeExpr) :
    motive type := by
  induction size : sizeOf type using Nat.strongRecOn generalizing type with
  | ind n ih =>
    subst size
    exact step type fun part mem => ih _ (sizeOf_lt_of_mem_parts mem) part rfl

end TypeExpr

structure TypeParameter where
  name : String
  default : Option TypeExpr := none

inductive Body where
  | type (type : TypeExpr)
  | constant (initializer : String) (declared : Option TypeExpr)

end Fact

open TypeLoom.Fact in
structure Fact where
  name : String
  origin : Option String := none
  level : Nat := 0
  isPublic : Bool := false
  internal : Bool := false
  /-- Whether to render the declaration, if that does not follow from its being public. -/
  render : Option Bool := none
  comment : Option String := none
  typeParameters : List TypeParameter := []
  body : Body

namespace Fact

def ofType (name : String) (type : TypeExpr) : Fact :=
  { name := name, body := .type type }

def ofConstant (name : String) (initializer : String) : Fact :=
  { name := name, body := .constant initializer none }

def addTypeParameter (f : Fact) (parameter : TypeParameter) : Fact :=
  { f with typeParameters := f.typeParameters ++ [parameter] }

def shouldRender (f : Fact) : Bool :=
  f.render.getD f.isPublic

def isType (f : Fact) : Bool :=
  match f.body with
  | .type _ => true
  | .constant .. => false

def Body.types : Body → List TypeExpr
  | .type described => [described]
  | .constant _ declared => declared.toList

/-- The types that stand in a declaration: defaults of type parameters and its own. -/
def types (f : Fact) : List TypeExpr :=
  f.typeParameters.filterMap TypeParameter.default ++ f.body.types

/-- Whether the declared type is only null; constants have no answer. -/
def isNullish? (f : Fact) : Option Bool :=
  match f.body with
  | .type type => some type.isNullish
  | .constant .. => none

end Fact

end TypeLoom
