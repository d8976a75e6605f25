import TypeLoom.Ingest.Enum

/-! Types at the places of their use. Inline objects, enums, dictionaries, tuples and class unions
get nodes with made-up names; references build the declarations they name. -/
namespace TypeLoom.Ingest
open TypeLoom.Graph TypeLoom.Fact

/-- An empty record for an inline object. -/
def openRecord (name : String) (level : Nat) : Ingest NodeId :=
  registerAnonymous name (.record [] []) level

/-- Type parameters in scope that the properties of a shape mention. -/
def usedGenerics (generics : List String) : Shape → List String
  | .record properties _ => generics.filter fun g => properties.any fun p => p.type.mentions g
  | _ => []

/-- After its properties are known, an inline record takes the type parameters that they mention as
its own, and is used with them as arguments. -/
def closeRecord (id : NodeId) (generics : List String) : Ingest TypeUse := do
  let used := (((← getGraph).node? id).map fun node => usedGenerics generics node.shape).getD []
  for name in used do
    modifyGraph (·.addParameter id ⟨name, none⟩)
  return ⟨.node id, 0, used.map .ofGeneric⟩

/-- A record for an inline object, its properties added by `add`. -/
def inlineRecord (name : String) (scope : Scope) (add : NodeId → Scope → Ingest Unit) :
    Ingest TypeUse := do
  let id ← openRecord name (scope.level + 1)
  add id (scope.nested name)
  closeRecord id scope.generics

/-- Add a property whose type has been resolved. -/
def addProperty (id : NodeId) (subject : String) (fact : PropertyFact) (resolved : Resolved) :
    Ingest Unit := do
  let (default, comment) ← match fact.initializer with
    | some text => do
      let (value, comment) ← initializerValue subject text fact.comment
      pure (some value, comment)
    | none => pure (none, fact.comment)
  modifyGraph (·.addProperty id {
    name := fact.name
    type := resolved.type.deepen fact.arrayDepth
    optional := fact.optional || resolved.nullable
    readonly := fact.readonly
    comment := comment
    default := default })

/-- The primitive type that a union of two or more types collapses to, if they are all of one kind.
-/
def collapsed? (types : List TypeExpr) : Option Primitive :=
  if types.all TypeExpr.isNumeric then some .number
  else if types.all TypeExpr.isTextual then some .string
  else if types.all TypeExpr.isBoolean then some .boolean
  else none

def mayBeRecord : TypeExpr → Bool
  | .object .. | .reference .. => true
  | _ => false

/-- Whether a union may become a class union. -/
def admitsClassUnion (settings : Settings) (types : List TypeExpr) : Bool :=
  settings.classUnions && 2 ≤ types.length && types.length ≤ settings.maxClassUnionArity &&
    types.all mayBeRecord

/-- Whether a use is that of a single record. -/
def isRecordUse (g : Graph) (u : TypeUse) : Bool :=
  u.arrayDepth == 0 && (u.nodeId?.bind g.node?).any fun node => node.shape.isRecord

/-- Keys of the dictionary that `Record` denotes. -/
def recordKey : TypeExpr → IndexKey
  | .primitive .number | .numberLiteral _ => .number
  | _ => .string

/-- An inline dictionary. -/
def dictionaryUse (stem : String) (key : IndexKey) (value : TypeUse) (level : Nat) :
    Ingest Resolved := do
  return ⟨.ofNode (← registerAnonymous (stem ++ "Dictionary") (.dictionary key value []) level),
    false⟩

/-- A union: an enum, its only member, a primitive type, a class union, or else `object`. Null and
undefined only make it nullable. The steps `only` and `records` resolve the only member and the
records of a class union. -/
def unionUse (c : Context) (enter : Nat → Ingest (Option NodeId)) (members : List TypeExpr)
    (scope : Scope) (member : String) (only : Ingest (Option Resolved))
    (records : Ingest (Option (List TypeUse))) : Ingest (Option Resolved) := do
  let types := members.filter fun type => !type.isNullish
  let nullable := types.length != members.length
  if types.isEmpty then return some ⟨← primitiveUse .null, nullable⟩
  let name := madeUpName scope.name member "Enum"
  match ← literalUnion c enter name types with
  | some (.members members) =>
    return some ⟨.ofNode (← registerAnonymous name (.stringUnion members) (scope.level + 1)),
      nullable⟩
  | some (.existing id) => return some ⟨.ofNode id, nullable⟩
  | none =>
    if types.length = 1 then
      return (← only).map fun r => ⟨r.type, nullable || r.nullable⟩
    else if let some kind := collapsed? types then
      return some ⟨← primitiveUse kind, nullable⟩
    else
      let found ← if admitsClassUnion c.settings types then records else pure none
      match found with
      | some uses =>
        let base ← tryGraph (·.unionBase types.length)
        let stem := madeUpName scope.name member ""
        let id ← registerAnonymous (stem ++ "Union") (.classUnionInstance base uses)
          (scope.level + 1)
        return some ⟨.ofNode id, nullable⟩
      | none =>
        report .lossyUnion (scope.name ++ "." ++ member)
          ("union of " ++ toString types.length ++ " members collapsed to object")
        return some ⟨← primitiveUse .object, nullable⟩

mutual

/-- The use of a type, or nothing if it cannot be resolved; `member` names the place. Declarations
are built by `enter`. -/
def resolveUse (c : Context) (enter : Nat → Ingest (Option NodeId)) :
    TypeExpr → Scope → (member : String) → Ingest (Option Resolved)
  | .primitive kind, _, _ => return some ⟨← primitiveUse kind, kind.isNullish⟩
  | .stringLiteral _, _, _ => return some ⟨← primitiveUse .string, false⟩
  | .numberLiteral _, _, _ => return some ⟨← primitiveUse .number, false⟩
  | .booleanLiteral _, _, _ => return some ⟨← primitiveUse .boolean, false⟩
  | .enumLiteral enumName literal _, _, _ => do
    return (← enumOfLiteral c enter enumName literal).map fun id => ⟨.ofNode id, false⟩
  | .union members, scope, member =>
    unionUse c enter members scope member (resolveOnly c enter members scope member)
      (resolveRecords c enter members scope member 1)
  | .enumeration entries, scope, member => do
    let name := madeUpName scope.name member "Enum"
    let members ← enumMembers name (entryPairs entries)
    return some ⟨.ofNode (← registerAnonymous name (.stringUnion members) (scope.level + 1)), false⟩
  | .object [] [signature], scope, member => do
    let stem := madeUpName scope.name member ""
    let value ← dictionaryValue c enter signature scope stem
    return some (← dictionaryUse stem signature.key value (scope.level + 1))
  | .object properties _, scope, member => do
    let name := madeUpName scope.name member "Class"
    return some ⟨← inlineRecord name scope (addProperties c enter properties), false⟩
  | .array element, scope, member => do
    return (← resolveUse c enter element scope member).map Resolved.deepen
  | .tuple elements, scope, member => do
    let nested := scope.nested (madeUpName scope.name member "")
    let uses ← resolveItems c enter elements nested 1
    return some
      ⟨.ofNode (← registerAnonymous (nested.name ++ "Tuple") (.tuple uses []) nested.level), false⟩
  | .reference name origin arguments, scope, member => do
    if scope.generics.contains name && arguments.isEmpty then
      return some ⟨.ofGeneric name, false⟩
    let place := (origin.bind c.placeOfOrigin?).or (c.placesNamed name).head?
    let target ← match place with
      | some place => enter place
      | none => do
        let builtin ←
          if name == "Array" || name == "ReadonlyArray" then
            resolveArrayOf c enter arguments scope member
          else if name == "Record" then resolveRecordOf c enter arguments scope member
          else pure none
        if let some resolved := builtin then return some resolved
        pure ((← getGraph).findByTypeText name)
    match target with
    | none => return none
    | some id =>
      return some ⟨⟨.node id, 0, ← resolveArguments c enter arguments scope member⟩, false⟩
  | .parameter name, scope, _ =>
    return if scope.generics.contains name then some ⟨.ofGeneric name, false⟩ else none
termination_by structural type => type

/-- The first type that is not null. -/
def resolveOnly (c : Context) (enter : Nat → Ingest (Option NodeId)) :
    List TypeExpr → Scope → (member : String) → Ingest (Option Resolved)
  | [], _, _ => return none
  | type :: rest, scope, member =>
    if type.isNullish then resolveOnly c enter rest scope member
    else resolveUse c enter type scope member
termination_by structural types => types

/-- The types other than null, `number` counting them, unless one is not a record. -/
def resolveRecords (c : Context) (enter : Nat → Ingest (Option NodeId)) :
    List TypeExpr → Scope → (member : String) → (number : Nat) → Ingest (Option (List TypeUse))
  | [], _, _, _ => return some []
  | type :: rest, scope, member, number => do
    if type.isNullish then resolveRecords c enter rest scope member number
    else
      match ← resolveUse c enter type scope (member ++ "Option" ++ toString number) with
      | none => return none
      | some resolved =>
        if isRecordUse (← getGraph) resolved.type then
          return (← resolveRecords c enter rest scope member (number + 1)).map (resolved.type :: ·)
        else return none
termination_by structural types => types

/-- Items of a tuple, `number` counting them. -/
def resolveItems (c : Context) (enter : Nat → Ingest (Option NodeId)) :
    List TypeExpr → Scope → (number : Nat) → Ingest (List TypeUse)
  | [], _, _ => return []
  | type :: rest, scope, number => do
    let first ← orObject (← resolveUse c enter type scope ("Item" ++ toString number))
    return first :: (← resolveItems c enter rest scope (number + 1))
termination_by structural types => types

/-- Type arguments of a reference. -/
def resolveArguments (c : Context) (enter : Nat → Ingest (Option NodeId)) :
    List TypeExpr → Scope → (member : String) → Ingest (List TypeUse)
  | [], _, _ => return []
  | type :: rest, scope, member => do
    let first ← orObject (← resolveUse c enter type scope member)
    return first :: (← resolveArguments c enter rest scope member)
termination_by structural types => types

/-- `Array` with one argument. -/
def resolveArrayOf (c : Context) (enter : Nat → Ingest (Option NodeId)) :
    List TypeExpr → Scope → (member : String) → Ingest (Option Resolved)
  | [element], scope, member => do
    return (← resolveUse c enter element scope member).map Resolved.deepen
  | _, _, _ => return none
termination_by structural types => types

/-- `Record` with a key and a value type. -/
def resolveRecordOf (c : Context) (enter : Nat → Ingest (Option NodeId)) :
    List TypeExpr → Scope → (member : String) → Ingest (Option Resolved)
  | [key, value], scope, member => do
    let stem := madeUpName scope.name member ""
    let nested := scope.nested stem
    let use ← orObject (← resolveUse c enter value nested "Value")
    return some (← dictionaryUse stem (recordKey key) use nested.level)
  | _, _, _ => return none
termination_by structural types => types

/-- Value type of a dictionary. An inline object is named after the dictionary. -/
def dictionaryValue (c : Context) (enter : Nat → Ingest (Option NodeId)) :
    IndexSignature → Scope → (stem : String) → Ingest TypeUse
  | ⟨_, value⟩, scope, stem =>
    let name := Name.pascal stem ++ "Value"
    match value with
    | .object properties [] => inlineRecord name scope (addProperties c enter properties)
    | .object (property :: properties) [_] =>
      inlineRecord name scope (addProperties c enter (property :: properties))
    | .object properties (_ :: _ :: _) => inlineRecord name scope (addProperties c enter properties)
    | other => do
      orObject (← resolveUse c enter other (scope.nested stem) "Value")
termination_by structural signature => signature

/-- Properties of a record. Those whose types cannot be resolved are left out with a remark. -/
def addProperties (c : Context) (enter : Nat → Ingest (Option NodeId)) :
    List PropertyFact → NodeId → Scope → Ingest Unit
  | [], _, _ => return ()
  | ⟨name, type, optional, readonly, arrayDepth, comment, initializer⟩ :: rest, id, scope => do
    let subject := scope.name ++ "." ++ name
    match ← resolveUse c enter type scope name with
    | none =>
      report .unresolvedType subject "property type could not be resolved; property skipped"
    | some resolved =>
      addProperty id subject
        ⟨name, type, optional, readonly, arrayDepth, comment, initializer⟩ resolved
    addProperties c enter rest id scope
termination_by structural properties => properties

end

end TypeLoom.Ingest
