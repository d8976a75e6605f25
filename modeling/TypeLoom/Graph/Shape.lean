import TypeLoom.Literal.Value
import TypeLoom.Primitive

/-! Shapes of types. A shape refers to other types by their node numbers, at places called type
uses. Both ways to go over these places, listing them and mapping them, follow one order: the base,
then the defaults of type parameters, then the uses of the shape itself. -/
namespace TypeLoom

/-- Number of a node, counted from zero. -/
abbrev NodeId := Nat

inductive Target where
  | node (id : NodeId)
  | generic (name : String)
deriving DecidableEq, Repr

/-- A type at the place of its use: what it refers to, how many array ranks are around it, and its
type arguments. -/
structure TypeUse where
  target : Target
  arrayDepth : Nat := 0
  arguments : List TypeUse := []

namespace TypeUse

def ofNode (id : NodeId) : TypeUse := ⟨.node id, 0, []⟩
def ofGeneric (name : String) : TypeUse := ⟨.generic name, 0, []⟩

/-- More array ranks do not fit. -/
def maxDepth : Nat := 255

def deepen (u : TypeUse) (ranks : Nat) : TypeUse :=
  ⟨u.target, min maxDepth (u.arrayDepth + ranks), u.arguments⟩

def nodeId? (u : TypeUse) : Option NodeId :=
  match u.target with
  | .node id => some id
  | .generic _ => none

mutual

/-- All nodes named, the use's own before those of its arguments. -/
def nodes : TypeUse → List NodeId
  | ⟨.node id, _, arguments⟩ => id :: nodesOfAll arguments
  | ⟨.generic _, _, arguments⟩ => nodesOfAll arguments

def nodesOfAll : List TypeUse → List NodeId
  | [] => []
  | u :: rest => u.nodes ++ nodesOfAll rest

end

mutual

def mapNodes (f : NodeId → NodeId) : TypeUse → TypeUse
  | ⟨.node id, depth, arguments⟩ => ⟨.node (f id), depth, mapAllNodes f arguments⟩
  | ⟨.generic name, depth, arguments⟩ => ⟨.generic name, depth, mapAllNodes f arguments⟩

def mapAllNodes (f : NodeId → NodeId) : List TypeUse → List TypeUse
  | [] => []
  | u :: rest => u.mapNodes f :: mapAllNodes f rest

end

mutual

/-- Whether the type parameter `name` occurs. -/
def mentions (name : String) : TypeUse → Bool
  | ⟨.node _, _, arguments⟩ => anyMentions name arguments
  | ⟨.generic own, _, arguments⟩ => own == name || anyMentions name arguments

def anyMentions (name : String) : List TypeUse → Bool
  | [] => false
  | u :: rest => u.mentions name || anyMentions name rest

end

mutual

/-- The same type, written the same way. -/
def same : TypeUse → TypeUse → Bool
  | ⟨t, d, as⟩, ⟨u, e, bs⟩ => t == u && d == e && sameAll as bs

def sameAll : List TypeUse → List TypeUse → Bool
  | [], [] => true
  | a :: as, b :: bs => a.same b && sameAll as bs
  | _, _ => false

end

end TypeUse

namespace Graph

structure Parameter where
  name : String
  default : Option TypeUse

structure Property where
  name : String
  type : TypeUse
  optional : Bool
  readonly : Bool
  comment : Option String
  default : Option Literal.Value

structure Member where
  name : String
  /-- The number of the member, if it is not one more than that of the member before. -/
  value : Option Int
  /-- The serialized text of the member. -/
  wire : Option String
deriving DecidableEq, Repr

structure Constant where
  name : String
  type : TypeUse
  value : Literal.Value
  comment : Option String

/-- The shape of a type. -/
inductive Shape where
  | record (properties : List Property) (generics : List Parameter)
  | array (element : TypeUse) (generics : List Parameter)
  | stringUnion (members : List Member)
  | primitive (kind : Primitive)
  | dictionary (key : IndexKey) (value : TypeUse) (generics : List Parameter)
  | constants (items : List Constant)
  | tuple (elements : List TypeUse) (generics : List Parameter)
  | instantiation (base : NodeId) (arguments : List TypeUse) (generics : List Parameter)
  | classUnion (arity : Nat)
  | classUnionInstance (base : NodeId) (members : List TypeUse)

/-- Kinds of declarations in the order in which a file lists them. -/
inductive DeclarationKind where
  | const
  | enum
  | classUnion
  | record
  | tuple
  | dictionary
  | instantiation
deriving DecidableEq, Repr

def DeclarationKind.rank : DeclarationKind → Nat
  | const => 0
  | enum => 1
  | classUnion => 2
  | record => 3
  | tuple => 4
  | dictionary => 5
  | instantiation => 6

def DeclarationKind.label : DeclarationKind → String
  | const => "Const"
  | enum => "Enum"
  | classUnion => "ClassUnion"
  | record => "Record"
  | tuple => "Tuple"
  | dictionary => "Dictionary"
  | instantiation => "Instance"

namespace Shape

def label : Shape → String
  | record .. => "record"
  | array .. => "array"
  | stringUnion .. => "string-union"
  | primitive .. => "primitive"
  | dictionary .. => "dictionary"
  | constants .. => "const"
  | tuple .. => "tuple"
  | instantiation .. => "instance"
  | classUnion .. => "class-union"
  | classUnionInstance .. => "class-union-instance"

def declarationKind? : Shape → Option DeclarationKind
  | record .. => some .record
  | stringUnion .. => some .enum
  | dictionary .. => some .dictionary
  | constants .. => some .const
  | tuple .. => some .tuple
  | instantiation .. => some .instantiation
  | classUnion .. => some .classUnion
  | array .. | primitive .. | classUnionInstance .. => none

def isPrimitive : Shape → Bool
  | primitive .. => true
  | _ => false

def isRecord : Shape → Bool
  | record .. => true
  | _ => false

def generics : Shape → List Parameter
  | record _ generics | array _ generics | dictionary _ _ generics | tuple _ generics
  | instantiation _ _ generics => generics
  | stringUnion .. | primitive .. | constants .. | classUnion .. | classUnionInstance .. => []

/-- Replace the type parameters; shapes without any stay as they are. -/
def withGenerics (s : Shape) (generics : List Parameter) : Shape :=
  match s with
  | record properties _ => record properties generics
  | array element _ => array element generics
  | dictionary key value _ => dictionary key value generics
  | tuple elements _ => tuple elements generics
  | instantiation base arguments _ => instantiation base arguments generics
  | other => other

/-- The generic node that an instance is made of. -/
def base? : Shape → Option NodeId
  | instantiation base .. | classUnionInstance base _ => some base
  | _ => none

/-- Uses that belong to the shape itself. -/
def ownUses : Shape → List TypeUse
  | record properties _ => properties.map Property.type
  | array element _ => [element]
  | dictionary _ value _ => [value]
  | constants items => items.map Constant.type
  | tuple elements _ => elements
  | instantiation _ arguments _ => arguments
  | classUnionInstance _ members => members
  | stringUnion .. | primitive .. | classUnion .. => []

def typeUses (s : Shape) : List TypeUse :=
  s.generics.filterMap Parameter.default ++ s.ownUses

/-- Every node that the shape refers to, as often as it does. -/
def outgoing (s : Shape) : List NodeId :=
  s.base?.toList ++ s.typeUses.flatMap TypeUse.nodes

def mapParameters (f : NodeId → NodeId) (generics : List Parameter) : List Parameter :=
  generics.map fun p => ⟨p.name, p.default.map (TypeUse.mapNodes f)⟩

def mapNodes (f : NodeId → NodeId) : Shape → Shape
  | record properties generics =>
    record (properties.map fun p => { p with type := p.type.mapNodes f }) (mapParameters f generics)
  | array element generics => array (element.mapNodes f) (mapParameters f generics)
  | stringUnion members => stringUnion members
  | primitive kind => primitive kind
  | dictionary key value generics => dictionary key (value.mapNodes f) (mapParameters f generics)
  | constants items => constants (items.map fun c => { c with type := c.type.mapNodes f })
  | tuple elements generics => tuple (elements.map (TypeUse.mapNodes f)) (mapParameters f generics)
  | instantiation base arguments generics =>
    instantiation (f base) (arguments.map (TypeUse.mapNodes f)) (mapParameters f generics)
  | classUnion arity => classUnion arity
  | classUnionInstance base members =>
    classUnionInstance (f base) (members.map (TypeUse.mapNodes f))

def addProperty (s : Shape) (property : Property) : Shape :=
  match s with
  | record properties generics =>
    if properties.any fun p => p.name = property.name then s
    else record (properties ++ [property]) generics
  | other => other

def addMember (s : Shape) (member : Member) : Shape :=
  match s with
  | stringUnion members =>
    if members.any fun m => m.name = member.name then s else stringUnion (members ++ [member])
  | other => other

def addParameter (s : Shape) (parameter : Parameter) : Shape :=
  if s.generics.any fun g => g.name = parameter.name then s
  else s.withGenerics (s.generics ++ [parameter])

def addConstant (s : Shape) (constant : Constant) : Shape :=
  match s with
  | constants items =>
    if items.any fun c => c.name = constant.name then s else constants (items ++ [constant])
  | other => other

end Shape

end Graph

end TypeLoom
