import TypeLoom.Ingest.Use

/-! Declarations. Records and dictionaries are in the graph before their parts are resolved, so that
they can refer to themselves; a declaration that needs itself before that is reported. -/
namespace TypeLoom

namespace Ingest
open TypeLoom.Graph TypeLoom.Fact

/-- Type parameters of a declaration. -/
def parameters (c : Context) (enter : Nat → Ingest (Option NodeId)) (scope : Scope) :
    List TypeParameter → Ingest (List Parameter)
  | [] => return []
  | parameter :: rest => do
    let default ← match parameter.default with
      | some type => do
        pure ((← resolveUse c enter type scope parameter.name).map Resolved.type)
      | none => pure none
    return ⟨parameter.name, default⟩ :: (← parameters c enter scope rest)

/-- A declaration that stands for another type. A plain use is that type itself; arrays and
instantiations get a node with the name of the declaration. -/
def aliasOrWrap (c : Context) (enter : Nat → Ingest (Option NodeId)) (fact : Fact) (scope : Scope)
    (type : TypeUse) : Ingest NodeId := do
  match type.target with
  | .generic _ => withGraph (·.primitive .object)
  | .node target =>
    if 0 < type.arrayDepth then
      let generics ← parameters c enter scope fact.typeParameters
      registerNamed fact (.array ⟨type.target, type.arrayDepth - 1, type.arguments⟩ generics)
    else if type.arguments.isEmpty then return target
    else
      let generics ← parameters c enter scope fact.typeParameters
      registerNamed fact (.instantiation target type.arguments generics)

def setDictionaryValue (value : TypeUse) : Shape → Shape
  | .dictionary key _ generics => .dictionary key value generics
  | other => other

/-- A declared dictionary. Its value type is filled in last. -/
def declareDictionary (c : Context) (enter : Nat → Ingest (Option NodeId)) (place : Nat)
    (fact : Fact) (scope : Scope) (signature : IndexSignature) : Ingest NodeId := do
  let generics ← parameters c enter scope fact.typeParameters
  let placeholder ← primitiveUse .object
  let id ← registerNamed fact (.dictionary signature.key placeholder generics)
  markBuilt place id
  let value ← dictionaryValue c enter signature scope fact.name
  modifyGraph (·.modifyShape id (setDictionaryValue value))
  return id

/-- A declared record. Its type parameters and properties are added one by one. -/
def declareRecord (c : Context) (enter : Nat → Ingest (Option NodeId)) (place : Nat) (fact : Fact)
    (scope : Scope) (properties : List PropertyFact) : Ingest NodeId := do
  let id ← registerNamed fact (.record [] [])
  markBuilt place id
  for parameter in ← parameters c enter scope fact.typeParameters do
    modifyGraph (·.addParameter id parameter)
  addProperties c enter properties id scope
  return id

/-- The node of a type declaration, or nothing if its type cannot be resolved. -/
def declareType (c : Context) (enter : Nat → Ingest (Option NodeId)) (place : Nat) (fact : Fact)
    (type : TypeExpr) : Ingest (Option NodeId) := do
  let scope : Scope := ⟨fact.name, fact.level, fact.typeParameters.map TypeParameter.name⟩
  match type with
  | .primitive kind => return some (← withGraph (·.primitive kind))
  | .stringLiteral _ | .numberLiteral _ | .booleanLiteral _ =>
    return (← resolveUse c enter type scope "").bind fun r => r.type.nodeId?
  | .enumeration entries =>
    let members ← enumMembers fact.name (entryPairs entries)
    return some (← registerNamed fact (.stringUnion members))
  | .union members =>
    match ← literalUnion c enter fact.name (members.filter fun type => !type.isNullish) with
    | some (.members members) => return some (← registerNamed fact (.stringUnion members))
    | some (.existing id) => return some id
    | none =>
      match ← resolveUse c enter type scope "" with
      | some resolved => return some (← aliasOrWrap c enter fact scope resolved.type)
      | none => return none
  | .object [] [signature] => return some (← declareDictionary c enter place fact scope signature)
  | .object properties _ => return some (← declareRecord c enter place fact scope properties)
  | .array element =>
    let generics ← parameters c enter scope fact.typeParameters
    let use ← orObject (← resolveUse c enter element scope "Item")
    return some (← registerNamed fact (.array use generics))
  | .tuple elements =>
    let generics ← parameters c enter scope fact.typeParameters
    let uses ← resolveItems c enter elements scope 1
    return some (← registerNamed fact (.tuple uses generics))
  | .reference .. | .enumLiteral .. | .parameter .. =>
    match ← resolveUse c enter type scope "" with
    | some resolved => return some (← aliasOrWrap c enter fact scope resolved.type)
    | none =>
      report .unresolvedType fact.name "declaration body could not be resolved"
      return none

/-- Add a constant, of its declared type or else of the type of its value. -/
def declareConstant (c : Context) (enter : Nat → Ingest (Option NodeId)) (fact : Fact)
    (initializer : String) (declared : Option TypeExpr) : Ingest NodeId := do
  let (value, comment) ← initializerValue fact.name initializer fact.comment
  let scope : Scope := ⟨c.settings.constantsClass, fact.level, []⟩
  let resolved ← match declared with
    | some type => resolveUse c enter type scope fact.name
    | none => pure none
  let type ← match resolved with
    | some resolved => pure resolved.type
    | none => inferUse value
  withGraph (·.addConstant ⟨fact.name, type, value, comment⟩)

def declareFact (c : Context) (enter : Nat → Ingest (Option NodeId)) (place : Nat) (fact : Fact) :
    Ingest (Option NodeId) := do
  match fact.body with
  | .constant initializer declared =>
    return some (← declareConstant c enter fact initializer declared)
  | .type type => declareType c enter place fact type

/-- A declaration that is needed while it is being built. -/
def reportCycle (c : Context) (place : Nat) : Ingest (Option NodeId) := do
  if let some fact := c.facts[place]? then
    report .unresolvedType fact.name "declaration refers to itself through aliases only"
  return none

/-- The node of the declaration at `place`, which is built if it is not yet. The declarations in
`pending` are being built; at level zero these are all. -/
def declaration (c : Context) : (level : Nat) → (pending : List Nat) → (place : Nat) →
    Ingest (Option NodeId)
  | 0, _, place => do
    match ← built? place with
    | some id => return some id
    | none => reportCycle c place
  | level + 1, pending, place => do
    match ← built? place with
    | some id => return some id
    | none =>
      if pending.contains place then reportCycle c place
      else
        match c.facts[place]? with
        | none => return none
        | some fact =>
          let id ← declareFact c (declaration c level (place :: pending)) place fact
          if let some id := id then markBuilt place id
          return id

/-- Build all declarations in order. -/
def buildFacts (c : Context) : Ingest Unit := do
  for place in List.range c.facts.length do
    discard (declaration c c.facts.length [] place)

end Ingest

/-- Put facts into the graph. -/
def Graph.ingest (g : Graph) (settings : Settings) (facts : List Fact) :
    Except Graph.MissingIdentity Unit × Graph :=
  let (result, state) := (Ingest.buildFacts ⟨settings, facts⟩).run.run { graph := g }
  (result, state.graph)

end TypeLoom
