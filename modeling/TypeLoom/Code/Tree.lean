import TypeLoom.Number.Double

/-! The part of C# that a generated file uses. -/
namespace TypeLoom.Code

/-- A type in use: `string`, `List<T>`, `User[][]`. -/
inductive TypeRef where
  | named (name : String) (arguments : List TypeRef)
  | array (element : TypeRef)

namespace TypeRef

def plain (name : String) : TypeRef := .named name []
def object : TypeRef := .plain "object"

/-- `depth` array ranks around a type. -/
def arrays (type : TypeRef) : (depth : Nat) → TypeRef
  | 0 => type
  | depth + 1 => .array (arrays type depth)

/-- Whether a field of the type may be declared `const`. -/
def isConstant : TypeRef → Bool
  | .named name [] => name == "string" || name == "double" || name == "bool"
  | _ => false

/-- Type of the elements of an array type; any other type has elements of type `object`. -/
def element : TypeRef → TypeRef
  | .array inner => inner
  | .named .. => .object

end TypeRef

inductive Expr where
  | null
  | default
  | bool (value : Bool)
  | number (value : Double)
  | text (value : String)
  | array (element : TypeRef) (items : List Expr)

structure Property where
  name : String
  /-- Serialized name, if it is spelled out. -/
  jsonName : Option String
  type : TypeRef
  nullable : Bool
  readonly : Bool
  initializer : Option Expr
  comment : Option String

structure EnumMember where
  name : String
  value : Option Int
  /-- Serialized value, if the member has one. -/
  wire : Option String

structure Field where
  name : String
  type : TypeRef
  value : Expr
  /-- `const` instead of `static readonly`. -/
  isConst : Bool
  comment : Option String

structure Parameter where
  type : TypeRef
  name : String

structure Class where
  name : String
  generics : List String
  base : Option TypeRef
  comment : Option String
  properties : List Property
  /-- Parameters of a constructor that hands them on to the base class. -/
  constructor : Option (List Parameter)

structure Enum where
  name : String
  comment : Option String
  members : List EnumMember
  /-- Members are serialized by name. -/
  stringConverter : Bool

/-- The static class of constants. -/
structure Constants where
  name : String
  fields : List Field

/-- An abstract class of `arity` type parameters with one sealed case for each. -/
structure UnionFamily where
  name : String
  arity : Nat

inductive Declaration where
  | record (decl : Class)
  | enumeration (decl : Enum)
  | constants (decl : Constants)
  | union (decl : UnionFamily)

structure File where
  /-- Comment lines under the mark of generated files. -/
  header : List String
  usings : List String
  /-- Name of the enclosing namespace. -/
  space : String
  declarations : List Declaration

end TypeLoom.Code
