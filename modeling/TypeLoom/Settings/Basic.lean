import TypeLoom.Name.Word
import TypeLoom.Settings.Document

/-! How the output is to look. -/
namespace TypeLoom

open Name (Casing) in
structure Settings where
  /-- Namespace around all declarations. -/
  space : String := "Generated"
  typeCasing : Casing := .pascal
  propertyCasing : Casing := .pascal
  enumMemberCasing : Casing := .pascal
  /-- Turn unions of records into union families. -/
  classUnions : Bool := false
  /-- The largest union family. -/
  maxClassUnionArity : Nat := 8
  /-- Spell out serialized names that differ from the written ones. -/
  jsonAttributes : Bool := true
  constantsClass : String := "Constants"
  header : Option String := none
deriving DecidableEq, Repr

namespace Settings

def Value.casing? : Value → Option Name.Casing
  | text label | choice label => Name.Casing.ofLabel? label
  | integer _ | boolean _ => none

/-- Settings with one entry of a document applied; unknown keys and values of the wrong kind are
refused. -/
def assign? (s : Settings) (key : String) (value : Value) : Option Settings :=
  match key, value with
  | "namespace", .text space => some { s with space := space }
  | "type_casing", value => value.casing?.map fun casing => { s with typeCasing := casing }
  | "property_casing", value => value.casing?.map fun casing => { s with propertyCasing := casing }
  | "enum_member_casing", value =>
    value.casing?.map fun casing => { s with enumMemberCasing := casing }
  | "class_unions", .boolean flag => some { s with classUnions := flag }
  | "max_class_union_arity", .integer n =>
    if 0 ≤ n then some { s with maxClassUnionArity := n.toNat } else none
  | "json_attributes", .boolean flag => some { s with jsonAttributes := flag }
  | "constants_class", .text name => some { s with constantsClass := name }
  | "header", .text header => some { s with header := some header }
  | _, _ => none

/-- Settings by the entries of a document; what is not said keeps its default. -/
def ofEntries? (entries : List (String × Value)) : Option Settings :=
  entries.foldlM (fun s (key, value) => assign? s key value) {}

/-- The settings that a document describes. -/
def read? (document : String) : Option Settings :=
  (entries? document).bind ofEntries?

end Settings

end TypeLoom
