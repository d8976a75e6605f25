import TypeLoom.Ingest.Basic

/-! Enums: the numbers of their members, and unions of literals that amount to enums. -/
namespace TypeLoom.Ingest
open TypeLoom.Graph TypeLoom.Fact

/-- Integers that an enum member can have: 32 bits with sign. -/
def enumInteger? (x : Double) : Option Int :=
  x.integer?.filter fun n => -0x80000000 ≤ n && n < 0x80000000

/-- One member, the number expected after it, and what there is to report about it. -/
structure Numbered where
  member : Member
  next : Int
  problem : Option String := none

/-- Only a number other than the expected one is kept. A number that no member can have is dropped
with a remark. -/
def numberMember (expected : Int) (name : String) : Option EnumValue → Numbered
  | none => ⟨⟨name, none, none⟩, expected + 1, none⟩
  | some (.text wire) => ⟨⟨name, none, some wire⟩, expected + 1, none⟩
  | some (.number x) =>
    match enumInteger? x with
    | some n => ⟨⟨name, if n = expected then none else some n, none⟩, n + 1, none⟩
    | none =>
      let problem := if x.integer?.isSome then "is outside the int range" else "is not integral"
      ⟨⟨name, none, none⟩, expected + 1,
        some ("value " ++ x.text ++ " " ++ problem ++ "; using the implicit value")⟩

/-- Members with numbers only where they are not one more than the number before. Only the first
member of a name counts. -/
def numberMembers (seen : List String) (expected : Int) :
    List (String × Option EnumValue) → List Numbered
  | [] => []
  | (name, value) :: rest =>
    if seen.contains name then numberMembers seen expected rest
    else
      let numbered := numberMember expected name value
      numbered :: numberMembers (name :: seen) numbered.next rest

def enumMembers (subject : String) (members : List (String × Option EnumValue)) :
    Ingest (List Member) := do
  let numbered := numberMembers [] 0 members
  for entry in numbered do
    if let some problem := entry.problem then
      report .nonIntegralEnum (subject ++ "." ++ entry.member.name) problem
  return numbered.map Numbered.member

def entryPairs (members : List EnumEntry) : List (String × Option EnumValue) :=
  members.map fun entry => (entry.name, entry.value)

/-- What a union of literals amounts to. -/
inductive LiteralUnion where
  | members (members : List Member)
  | existing (id : NodeId)

/-- The texts, if all types are string literals. -/
def literalTexts? (types : List TypeExpr) : Option (List String) :=
  types.mapM fun
    | .stringLiteral value => some value
    | _ => none

/-- A literal of an enum; the name is empty if the enum is not known. -/
structure EnumLiteral where
  enumName : String
  member : String
  value : Option EnumValue

def enumLiterals? (types : List TypeExpr) : Option (List EnumLiteral) :=
  types.mapM fun
    | .enumLiteral enumName member value => some ⟨enumName.getD "", member, value⟩
    | _ => none

/-- Build declarations in order, up to one that fails; `true` if none does. -/
def buildAll (enter : Nat → Ingest (Option NodeId)) : List Nat → Ingest Bool
  | [] => return true
  | place :: rest => do
    let fine ← tryCatch (do discard (enter place); return true) fun _ => return false
    if fine then buildAll enter rest else return false

/-- Whether an enum has exactly these literals. -/
def coversExactly (literals : List EnumLiteral) : Shape → Bool
  | .stringUnion members =>
    members.length == literals.length &&
      literals.all fun l => members.any fun m => m.name == l.member
  | _ => false

/-- The declared enum that has exactly these literals. -/
def existingEnum (c : Context) (enter : Nat → Ingest (Option NodeId))
    (literals : List EnumLiteral) : Ingest (Option NodeId) := do
  match literals with
  | [] => return none
  | first :: _ =>
    if first.enumName.isEmpty || literals.any (·.enumName != first.enumName) then return none
    else if !(← buildAll enter (c.placesNamed first.enumName)) then return none
    else
      match ← withGraph (·.findUnion first.member (some first.enumName)) with
      | none => return none
      | some id =>
        let covers := ((← getGraph).node? id).any fun node => coversExactly literals node.shape
        return if covers then some id else none

/-- A union of string literals is an enum of these texts, a union of two or more enum literals is
the enum they come from or an enum of its own. -/
def literalUnion (c : Context) (enter : Nat → Ingest (Option NodeId)) (subject : String)
    (types : List TypeExpr) : Ingest (Option LiteralUnion) := do
  if types.isEmpty then return none
  match literalTexts? types with
  | some texts => return some (.members (texts.eraseDups.map fun text => ⟨text, none, some text⟩))
  | none =>
    if types.length = 1 then return none
    match enumLiterals? types with
    | none => return none
    | some literals =>
      match ← existingEnum c enter literals with
      | some id => return some (.existing id)
      | none =>
        return some (.members (← enumMembers subject (literals.map fun l => (l.member, l.value))))

/-- The enum of a single literal. -/
def enumOfLiteral (c : Context) (enter : Nat → Ingest (Option NodeId)) (enumName : Option String)
    (member : String) : Ingest (Option NodeId) := do
  for place in (enumName.map c.placesNamed).getD [] do
    discard (enter place)
  withGraph (·.findUnion member enumName)

end TypeLoom.Ingest
