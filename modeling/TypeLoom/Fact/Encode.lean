import TypeLoom.Fact.Basic
import TypeLoom.Json.Basic

/-! Facts as JSON. Every field is written, absent values as null. -/
namespace TypeLoom.Fact
open Json (ofString ofInt ofDouble ofFields ofOption)

def EnumValue.toJson : EnumValue → Json
  | number value => ofDouble value
  | text value => ofString value

def EnumEntry.toJson (e : EnumEntry) : Json :=
  ofFields [("name", ofString e.name), ("value", ofOption EnumValue.toJson e.value)]

/-- The label that tells descriptions apart. -/
def TypeExpr.label : TypeExpr → String
  | .primitive .. => "primitive"
  | .stringLiteral .. => "stringLiteral"
  | .numberLiteral .. => "numberLiteral"
  | .booleanLiteral .. => "booleanLiteral"
  | .enumLiteral .. => "enumLiteral"
  | .union .. => "union"
  | .enumeration .. => "enum"
  | .object .. => "object"
  | .array .. => "array"
  | .tuple .. => "tuple"
  | .reference .. => "reference"
  | .parameter .. => "typeParameter"

def tagged (label : String) (fields : List (String × Json)) : Json :=
  ofFields (("kind", ofString label) :: fields)

mutual

def TypeExpr.toJson : TypeExpr → Json
  | .primitive kind => tagged "primitive" [("name", ofString kind.label)]
  | .stringLiteral value => tagged "stringLiteral" [("value", ofString value)]
  | .numberLiteral value => tagged "numberLiteral" [("value", ofDouble value)]
  | .booleanLiteral value => tagged "booleanLiteral" [("value", .bool value)]
  | .enumLiteral enumName member value =>
    tagged "enumLiteral"
      [("enumName", ofOption ofString enumName), ("member", ofString member),
       ("value", ofOption EnumValue.toJson value)]
  | .union members => tagged "union" [("members", .array (typesToJson members))]
  | .enumeration members =>
    tagged "enum" [("members", .array (members.map EnumEntry.toJson))]
  | .object properties signatures =>
    tagged "object"
      [("properties", .array (propertiesToJson properties)),
       ("indexSignatures", .array (signaturesToJson signatures))]
  | .array element => tagged "array" [("element", element.toJson)]
  | .tuple elements => tagged "tuple" [("elements", .array (typesToJson elements))]
  | .reference name origin arguments =>
    tagged "reference"
      [("name", ofString name), ("originId", ofOption ofString origin),
       ("typeArguments", .array (typesToJson arguments))]
  | .parameter name => tagged "typeParameter" [("name", ofString name)]

def typesToJson : List TypeExpr → List Json
  | [] => []
  | type :: rest => type.toJson :: typesToJson rest

def propertiesToJson : List PropertyFact → List Json
  | [] => []
  | ⟨name, type, optional, readonly, arrayDepth, comment, initializer⟩ :: rest =>
    ofFields
      [("name", ofString name), ("type", type.toJson), ("optional", .bool optional),
       ("readonly", .bool readonly), ("arrayDepth", ofInt arrayDepth),
       ("comment", ofOption ofString comment),
       ("initializer", ofOption ofString initializer)] :: propertiesToJson rest

def signaturesToJson : List IndexSignature → List Json
  | [] => []
  | ⟨key, value⟩ :: rest =>
    ofFields [("key", ofString key.label), ("value", value.toJson)] :: signaturesToJson rest

end

def TypeParameter.toJson (p : TypeParameter) : Json :=
  ofFields [("name", ofString p.name), ("default", ofOption TypeExpr.toJson p.default)]

def Body.toJson : Body → Json
  | .type value => ofFields [("type", value.toJson)]
  | .constant initializer declared =>
    ofFields [("constant", ofFields
      [("initializer", ofString initializer), ("declared", ofOption TypeExpr.toJson declared)])]

def toJson (f : Fact) : Json :=
  ofFields
    [("name", ofString f.name), ("originId", ofOption ofString f.origin), ("level", ofInt f.level),
     ("isPublic", .bool f.isPublic), ("internal", .bool f.internal),
     ("render", ofOption Json.bool f.render), ("comment", ofOption ofString f.comment),
     ("typeParameters", .array (f.typeParameters.map TypeParameter.toJson)),
     ("body", f.body.toJson)]

def listToJson (facts : List Fact) : Json :=
  .array (facts.map toJson)

end TypeLoom.Fact
