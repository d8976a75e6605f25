import TypeLoom.Code.Identifier
import TypeLoom.Code.Tree
import TypeLoom.Graph.Query
import TypeLoom.Name.Render
import TypeLoom.Settings.Basic
import TypeLoom.Text.Basic

/-! From a graph to the declaration tree of a file. Every declared node becomes a declaration; other
nodes are written in place wherever they are used. A node that is written in place inside itself is
cut off as `object`. -/
namespace TypeLoom.Code
open TypeLoom.Graph (Node Shape Member Constant)

/-! ### Unique names -/

/-- The first of `base1`, `base2`, … from `number` on that is not taken. One of the first
`taken.length + 1` is free. -/
def freeNumbered (taken : List String) (base : String) : (steps : Nat) → (number : Nat) → String
  | 0, number => base ++ toString number
  | steps + 1, number =>
    let candidate := base ++ toString number
    if taken.contains candidate then freeNumbered taken base steps (number + 1) else candidate

/-- The name itself, or with the first number that makes it a new one. -/
def uniqueName (taken : List String) (base : String) : String :=
  if taken.contains base then freeNumbered taken base taken.length 1 else base

/-- Unique names in order, besides those already taken. -/
def uniqueNames (taken : List String) : List String → List String
  | [] => []
  | base :: rest =>
    let name := uniqueName taken base
    name :: uniqueNames (name :: taken) rest

/-- What is needed to write types: the graph and the names of its declarations. -/
structure Naming where
  graph : Graph
  names : Table NodeId String

/-- The name of a declaration before it is made unique. -/
def declarationName (settings : Settings) (node : Node) : String :=
  match node.shape with
  | .constants _ => identifier settings.constantsClass
  | _ => identifier (Name.convert node.name settings.typeCasing .declaration)

/-- Declared nodes in order. -/
def declaredNodes (g : Graph) : List (NodeId × Node) :=
  g.declarations.filterMap fun id => (g.node? id).map (id, ·)

def Naming.of (g : Graph) (settings : Settings) : Naming :=
  let declared := declaredNodes g
  let names := uniqueNames [] (declared.map fun entry => declarationName settings entry.2)
  ⟨g, ⟨(declared.map Prod.fst).zip names⟩⟩

/-! ### Types -/

def primitiveType : Primitive → TypeRef
  | .string => .plain "string"
  | .number => .plain "double"
  | .boolean => .plain "bool"
  | .object | .any | .null | .undefined | .unknown => .object

def keyType : IndexKey → TypeRef
  | .string => .plain "string"
  | .number => .plain "double"

/-- Types bound to type parameters, of equal names the last one in front. -/
abbrev Bindings := List (String × TypeRef)

mutual

/-- A type use, `nodeType` writing nodes with their arguments. -/
def typeUse (nodeType : NodeId → List TypeRef → TypeRef) (bound : Bindings) : TypeUse → TypeRef
  | ⟨.generic name, depth, _⟩ =>
    ((bound.lookup name).getD (.plain (identifier name))).arrays depth
  | ⟨.node id, depth, arguments⟩ => (nodeType id (typeUses nodeType bound arguments)).arrays depth

def typeUses (nodeType : NodeId → List TypeRef → TypeRef) (bound : Bindings) :
    List TypeUse → List TypeRef
  | [] => []
  | u :: rest => typeUse nodeType bound u :: typeUses nodeType bound rest

end

/-- A way to write nodes under given bindings. -/
abbrev NodeWriter := Bindings → NodeId → List TypeRef → TypeRef

/-- Uses inside a node. -/
def NodeWriter.uses (writer : NodeWriter) (bound : Bindings) (uses : List TypeUse) : List TypeRef :=
  typeUses (writer bound) bound uses

def NodeWriter.use (writer : NodeWriter) (bound : Bindings) (u : TypeUse) : TypeRef :=
  typeUse (writer bound) bound u

/-- The argument of each type parameter: the one given, or else the default, or else `object`. -/
def argumentsFor (default : TypeUse → TypeRef) :
    List Graph.Parameter → (given : List TypeRef) → List TypeRef
  | [], _ => []
  | _ :: rest, argument :: given => argument :: argumentsFor default rest given
  | parameter :: rest, [] =>
    (parameter.default.map default).getD .object :: argumentsFor default rest []

/-- A node with its arguments. `inside id body` writes the inside of a node with a writer that knows
that it is inside, unless it was there already. -/
def nodeTypeWith (n : Naming) (inside : NodeId → (NodeWriter → TypeRef) → TypeRef)
    (bound : Bindings) (id : NodeId) (arguments : List TypeRef) : TypeRef :=
  let id := n.graph.resolve id
  let default (u : TypeUse) := inside id fun writer => writer.use bound u
  match n.graph.nodes[id]? with
  | none => .object
  | some node =>
    let named (arguments : List TypeRef) : TypeRef :=
      match n.names.get? id with
      | none => .object
      | some name => .named name arguments
    match node.shape, node.flags.anonymous with
    | .primitive kind, _ => primitiveType kind
    | .array element generics, _ =>
      let own : Bindings :=
        ((generics.map Graph.Parameter.name).zip (argumentsFor default generics arguments)).reverse
      inside id fun writer => .array (writer.use own element)
    | .classUnionInstance base members, _ =>
      inside id fun writer => writer bound base (writer.uses bound members)
    | .dictionary key value _, true =>
      inside id fun writer => .named "Dictionary" [keyType key, writer.use bound value]
    | .tuple elements _, true =>
      inside id fun writer => .named "Tuple" (writer.uses bound elements)
    | .instantiation base own _, true =>
      inside id fun writer => writer bound base (writer.uses bound own)
    | .classUnion arity, _ =>
      named ((List.range arity).map fun i => (arguments[i]?).getD .object)
    | shape, _ => named (argumentsFor default shape.generics arguments)

/-- A node inside those of a stack. At level zero every node is on the stack. -/
def nodeType (n : Naming) : (level : Nat) → (stack : List NodeId) → NodeWriter
  | 0, _ => nodeTypeWith n fun _ _ => .object
  | level + 1, stack => nodeTypeWith n fun id body =>
      if stack.contains id then .object else body (nodeType n level (id :: stack))

/-- Types at the top of a declaration. -/
def Naming.writer (n : Naming) : NodeWriter :=
  nodeType n n.graph.nodes.size []

def Naming.use (n : Naming) (u : TypeUse) : TypeRef :=
  n.writer.use [] u

/-! ### Values -/

mutual

/-- A constant of a type. Null is `default` in the place of a property, whose type may not have a
null, and stays null elsewhere. -/
def valueExpr (inConstant : Bool) (type : TypeRef) : Literal.Value → Expr
  | .null => if inConstant then .null else .default
  | .bool value => .bool value
  | .number value => .number value
  | .text value => .text value
  | .array items => .array type.element (valueExprs type.element items)

def valueExprs (type : TypeRef) : List Literal.Value → List Expr
  | [] => []
  | item :: rest => valueExpr true type item :: valueExprs type rest

end

/-! ### Declarations -/

/-- The name of a property or constant before it is made unique: not that of its class. -/
def memberName (settings : Settings) (className name : String) : String :=
  let cased := identifier (Name.convert name settings.propertyCasing .member)
  if cased = className then cased ++ "Value" else cased

def lowerProperty (n : Naming) (settings : Settings) (name : String) (p : Graph.Property) :
    Property :=
  let type := n.use p.type
  { name := name
    jsonName := if settings.jsonAttributes && name != p.name then some p.name else none
    type := type
    nullable := p.optional
    readonly := p.readonly
    initializer := p.default.map (valueExpr false type)
    comment := p.comment }

def lowerRecord (n : Naming) (settings : Settings) (name : String) (node : Node)
    (properties : List Graph.Property) : Class :=
  let names := uniqueNames [] (properties.map fun p => memberName settings name p.name)
  { name := name
    generics := node.shape.generics.map fun g => identifier g.name
    base := none
    comment := node.comment
    properties := (names.zip properties).map fun (name, p) => lowerProperty n settings name p
    constructor := none }

/-- A class that only gives a name to its base. -/
def derivedClass (name : String) (node : Node) (base : TypeRef)
    (constructor : Option (List Parameter)) : Class :=
  { name := name
    generics := node.shape.generics.map fun g => identifier g.name
    base := some base
    comment := node.comment
    properties := []
    constructor := constructor }

/-- The name of an enum member before it is made unique; `number` counts the members. -/
def enumMemberName (casing : Name.Casing) (name : String) (number : Nat) : String :=
  let formatted := Name.enumMember (Name.convert name casing .member) casing
  if formatted.isEmpty then "Value" ++ toString number else identifier formatted

def lowerEnum (settings : Settings) (name : String) (node : Node) (members : List Member) : Enum :=
  let bases := members.zipIdx.map fun (m, i) => enumMemberName settings.enumMemberCasing m.name i
  { name := name
    comment := node.comment
    members := ((uniqueNames [] bases).zip members).map fun (name, m) => ⟨name, m.value, m.wire⟩
    stringConverter := settings.jsonAttributes && members.any fun m => m.wire.isSome }

/-- Whether a value may be declared `const`: nulls and arrays may not. -/
def isScalar : Literal.Value → Bool
  | .null | .array _ => false
  | .bool _ | .number _ | .text _ => true

def lowerConstant (n : Naming) (name : String) (c : Constant) : Field :=
  let type := n.use c.type
  { name := name
    type := type
    value := valueExpr true type c.value
    isConst := type.isConstant && isScalar c.value
    comment := c.comment }

def lowerConstants (n : Naming) (settings : Settings) (name : String) (items : List Constant) :
    Constants :=
  let names := uniqueNames [] (items.map fun c => memberName settings name c.name)
  ⟨name, (names.zip items).map fun (name, c) => lowerConstant n name c⟩

def itemParameters (types : List TypeRef) : List Parameter :=
  types.zipIdx.map fun (type, i) => ⟨type, "item" ++ toString (i + 1)⟩

def lowerDeclaration (n : Naming) (settings : Settings) (name : String) (node : Node) :
    Option Declaration :=
  match node.shape with
  | .record properties _ => some (.record (lowerRecord n settings name node properties))
  | .stringUnion members => some (.enumeration (lowerEnum settings name node members))
  | .constants items => some (.constants (lowerConstants n settings name items))
  | .classUnion arity => some (.union ⟨name, arity⟩)
  | .dictionary key value _ =>
    some (.record (derivedClass name node (.named "Dictionary" [keyType key, n.use value]) none))
  | .instantiation base arguments _ =>
    some (.record (derivedClass name node (n.writer [] base (n.writer.uses [] arguments)) none))
  | .tuple elements _ =>
    let items := n.writer.uses [] elements
    some (.record (derivedClass name node (.named "Tuple" items) (some (itemParameters items))))
  | .array .. | .primitive _ | .classUnionInstance .. => none

/-- Whether the declaration needs attributes of data contracts. -/
def Declaration.usesSerialization : Declaration → Bool
  | .enumeration e => e.members.any fun m => m.wire.isSome
  | _ => false

/-- Whether the declaration needs attributes of JSON serialization. -/
def Declaration.usesJson : Declaration → Bool
  | .record c => c.properties.any fun p => p.jsonName.isSome
  | .enumeration e => e.stringConverter
  | _ => false

def usings (declarations : List Declaration) : List String :=
  ["System", "System.Collections.Generic"] ++
    (if declarations.any Declaration.usesSerialization then ["System.Runtime.Serialization"]
      else []) ++
    (if declarations.any Declaration.usesJson then ["System.Text.Json.Serialization"] else [])

/-- The file of all declarations of a graph. -/
def lowerFile (g : Graph) (settings : Settings) : File :=
  let naming := Naming.of g settings
  let declarations := (declaredNodes g).filterMap fun (id, node) =>
    (naming.names.get? id).bind fun name => lowerDeclaration naming settings name node
  { header := (settings.header.map fun h => (Text.lines h.toList).map String.ofList).getD []
    usings := usings declarations
    space := settings.space
    declarations := declarations }

end TypeLoom.Code
