import Mathlib.Data.Set.Function
import Mathlib.Logic.Relation
import TypeLoom.Ingest.Enum

/-! Which types resolve, as a matter of the set of declarations and not of their order. A
declaration that is being built when it is asked for cannot answer, so resolution is relative to the
names that are blocked in this way. -/
namespace TypeLoom.Fact
open TypeLoom.Graph TypeLoom.Ingest

def generics (f : Fact) : List String := f.typeParameters.map TypeParameter.name

def nonNull (members : List TypeExpr) : List TypeExpr := members.filter fun type => !type.isNullish

namespace TypeExpr

/-- Types that resolve whatever their parts are. -/
def isWhole : TypeExpr → Bool
  | primitive _ | stringLiteral _ | numberLiteral _ | booleanLiteral _ | enumeration _ | object ..
  | tuple _ => true
  | union members => (nonNull members).length != 1
  | array _ | reference .. | enumLiteral .. | parameter _ => false

def isArray : TypeExpr → Bool
  | array _ => true
  | _ => false

def memberNames? : TypeExpr → Option (List String)
  | enumeration entries => some (entries.map EnumEntry.name)
  | union members => if (nonNull members).isEmpty then none else literalTexts? (nonNull members)
  | _ => none

end TypeExpr

/-- Not a type parameter in scope. -/
def Escapes (generics : List String) (name : String) (arguments : List TypeExpr) : Prop :=
  (generics.contains name && arguments.isEmpty) = false

def Undeclared (D : Set Fact) (name : String) : Prop := ∀ fact ∈ D, fact.name ≠ name

def HasMember (D : Set Fact) (enumName : Option String) (member : String) : Prop :=
  ∃ fact ∈ D, enumName = some fact.name ∧ ∃ type names, fact.body = .type type ∧
    type.memberNames? = some names ∧ member ∈ names

/-- A type resolves with the declarations in `D`, those of blocked names set aside. -/
inductive Resolves (D : Set Fact) (blocked : String → Prop) : List String → TypeExpr → Prop
  | whole {generics type} : type.isWhole = true → Resolves D blocked generics type
  | only {generics members type} : nonNull members = [type] → Resolves D blocked generics type →
      Resolves D blocked generics (.union members)
  | array {generics element} : Resolves D blocked generics element →
      Resolves D blocked generics (.array element)
  | inScope {generics name origin} : name ∈ generics →
      Resolves D blocked generics (.reference name origin [])
  | parameter {generics name} : name ∈ generics → Resolves D blocked generics (.parameter name)
  | literal {generics enumName member value} : HasMember D enumName member →
      Resolves D blocked generics (.enumLiteral enumName member value)
  | declaredArray {generics name origin arguments fact element} : Escapes generics name arguments →
      fact ∈ D → fact.name = name → ¬ blocked name → fact.body = .type (.array element) →
      Resolves D blocked generics (.reference name origin arguments)
  | declared {generics name origin arguments fact type} : Escapes generics name arguments →
      fact ∈ D → fact.name = name → ¬ blocked name → fact.body = .type type →
      Resolves D blocked fact.generics type →
      Resolves D blocked generics (.reference name origin arguments)
  | arrayOf {generics name origin element} : Undeclared D name → name ∈ ["Array", "ReadonlyArray"] →
      Resolves D blocked generics element →
      Resolves D blocked generics (.reference name origin [element])
  | recordOf {generics origin key value} : Undeclared D "Record" →
      Resolves D blocked generics (.reference "Record" origin [key, value])

/-- The body of a declaration gives it a node: declared arrays have one of their own. -/
def Builds (D : Set Fact) (blocked : String → Prop) (fact : Fact) : Prop :=
  ∃ type, fact.body = .type type ∧ (type.isArray = true ∨ Resolves D blocked fact.generics type)

def nothing : String → Prop := fun _ => False

/-- What the resolution of a type looks up. -/
inductive Question where
  | declaration (name : String)
  | text (name : String)
  | literal (enumName : Option String) (member : String)

/-- The questions that decide on a type. -/
inductive Asks (D : Set Fact) : List String → TypeExpr → Question → Prop
  | only {generics members type question} : nonNull members = [type] →
      Asks D generics type question → Asks D generics (.union members) question
  | array {generics element question} : Asks D generics element question →
      Asks D generics (.array element) question
  | literal {generics enumName member value} :
      Asks D generics (.enumLiteral enumName member value) (.literal enumName member)
  | declaration {generics name origin arguments fact} : Escapes generics name arguments →
      fact ∈ D → fact.name = name →
      Asks D generics (.reference name origin arguments) (.declaration name)
  | through {generics name origin arguments fact type question} : Escapes generics name arguments →
      fact ∈ D → fact.name = name → fact.body = .type type → type.isArray = false →
      Asks D fact.generics type question →
      Asks D generics (.reference name origin arguments) question
  | arrayOf {generics name origin element question} : Undeclared D name →
      name ∈ ["Array", "ReadonlyArray"] → Asks D generics element question →
      Asks D generics (.reference name origin [element]) question
  | text {generics name origin arguments} : Escapes generics name arguments → Undeclared D name →
      Asks D generics (.reference name origin arguments) (.text name)

section resolves
variable {D : Set Fact} {blocked more : String → Prop} {generics : List String} {type : TypeExpr}

theorem Resolves.anti (fewer : ∀ name, blocked name → more name)
    (resolves : Resolves D more generics type) : Resolves D blocked generics type := by
  induction resolves with
  | whole always => exact .whole always
  | only single _ ih => exact .only single ih
  | array _ ih => exact .array ih
  | inScope mem => exact .inScope mem
  | parameter mem => exact .parameter mem
  | literal has => exact .literal has
  | declaredArray escapes mem name free body =>
    exact .declaredArray escapes mem name (fun hit => free (fewer _ hit)) body
  | declared escapes mem name free body _ ih =>
    exact .declared escapes mem name (fun hit => free (fewer _ hit)) body ih
  | arrayOf undeclared builtin _ ih => exact .arrayOf undeclared builtin ih
  | recordOf undeclared => exact .recordOf undeclared

theorem Builds.anti {fact : Fact} (fewer : ∀ name, blocked name → more name)
    (builds : Builds D more fact) : Builds D blocked fact := by
  obtain ⟨type, body, resolves⟩ := builds
  exact ⟨type, body, resolves.imp_right (·.anti fewer)⟩

/-- A resolution that does not need `fact` gets by without it, and one that does holds a resolution
of its body that does not. -/
theorem Resolves.without (distinct : Set.InjOn Fact.name D) {fact : Fact} (mem : fact ∈ D)
    (resolves : Resolves D blocked generics type) :
    Resolves D (fun name => blocked name ∨ name = fact.name) generics type ∨
      Builds D (fun name => blocked name ∨ name = fact.name) fact := by
  induction resolves with
  | whole always => exact .inl (.whole always)
  | only single _ ih => exact ih.imp_left (.only single)
  | array _ ih => exact ih.imp_left .array
  | inScope mem => exact .inl (.inScope mem)
  | parameter mem => exact .inl (.parameter mem)
  | literal has => exact .inl (.literal has)
  | @declaredArray _ name _ _ other element escapes there named free body =>
    by_cases same : name = fact.name
    · have : other = fact := distinct there mem (named.trans same)
      exact .inr ⟨_, this ▸ body, .inl rfl⟩
    · exact .inl (.declaredArray escapes there named (not_or.mpr ⟨free, same⟩) body)
  | @declared _ name _ _ other body escapes there named free isBody _ ih =>
    refine ih.elim (fun resolves => ?_) .inr
    by_cases same : name = fact.name
    · have : other = fact := distinct there mem (named.trans same)
      subst this
      exact .inr ⟨_, isBody, .inr resolves⟩
    · exact .inl (.declared escapes there named (not_or.mpr ⟨free, same⟩) isBody resolves)
  | arrayOf undeclared builtin _ ih => exact ih.imp_left (.arrayOf undeclared builtin)
  | recordOf undeclared => exact .inl (.recordOf undeclared)

theorem Builds.without_itself (distinct : Set.InjOn Fact.name D) {fact : Fact} (mem : fact ∈ D)
    (builds : Builds D blocked fact) :
    Builds D (fun name => blocked name ∨ name = fact.name) fact := by
  obtain ⟨type, body, array | resolves⟩ := builds
  · exact ⟨type, body, .inl array⟩
  · exact (resolves.without distinct mem).elim (fun resolves => ⟨type, body, .inr resolves⟩) id

theorem Resolves.unasked (resolves : Resolves D nothing generics type)
    (free : ∀ name, Asks D generics type (.declaration name) → ¬ blocked name) :
    Resolves D blocked generics type := by
  induction resolves with
  | whole always => exact .whole always
  | only single _ ih => exact .only single (ih fun name asks => free name (.only single asks))
  | array _ ih => exact .array (ih fun name asks => free name (.array asks))
  | inScope mem => exact .inScope mem
  | parameter mem => exact .parameter mem
  | literal has => exact .literal has
  | declaredArray escapes mem named _ body =>
    exact .declaredArray escapes mem named (free _ (.declaration escapes mem named)) body
  | @declared _ _ _ _ fact type escapes mem named _ body _ ih =>
    have here := free _ (.declaration escapes mem named)
    by_cases array : type.isArray = true
    · cases type with
      | array element => exact .declaredArray escapes mem named here body
      | _ => cases array
    · exact .declared escapes mem named here body (ih fun name asks =>
        free name (.through escapes mem named body (Bool.eq_false_of_not_eq_true array) asks))
  | arrayOf undeclared builtin _ ih =>
    exact .arrayOf undeclared builtin
      (ih fun name asks => free name (.arrayOf undeclared builtin asks))
  | recordOf undeclared => exact .recordOf undeclared

theorem resolves_union_iff {members : List TypeExpr} :
    Resolves D blocked generics (.union members) ↔
      (nonNull members).length ≠ 1 ∨
        ∃ type, nonNull members = [type] ∧ Resolves D blocked generics type := by
  constructor
  · rintro (always | ⟨single, resolves⟩)
    · exact .inl (by simpa [TypeExpr.isWhole] using always)
    · exact .inr ⟨_, single, resolves⟩
  · rintro (several | ⟨type, single, resolves⟩)
    · exact .whole (by simpa [TypeExpr.isWhole] using several)
    · exact .only single resolves

theorem resolves_array_iff {element : TypeExpr} :
    Resolves D blocked generics (.array element) ↔ Resolves D blocked generics element := by
  constructor
  · rintro (always | _ | resolves)
    · cases always
    · exact resolves
  · exact .array

theorem resolves_parameter_iff {name : String} :
    Resolves D blocked generics (.parameter name) ↔ name ∈ generics := by
  constructor
  · rintro (always | _ | _ | _ | mem)
    · cases always
    · exact mem
  · exact .parameter

theorem resolves_literal_iff {enumName : Option String} {member : String}
    {value : Option EnumValue} :
    Resolves D blocked generics (.enumLiteral enumName member value) ↔
      HasMember D enumName member := by
  constructor
  · rintro (always | _ | _ | _ | _ | has)
    · cases always
    · exact has
  · exact .literal

theorem resolves_declared_iff (distinct : Set.InjOn Fact.name D) {fact : Fact} (mem : fact ∈ D)
    {name : String} (named : fact.name = name) {origin : Option String} {arguments : List TypeExpr}
    (escapes : Escapes generics name arguments) :
    Resolves D blocked generics (.reference name origin arguments) ↔
      ¬ blocked name ∧ Builds D blocked fact := by
  constructor
  · intro resolves
    cases resolves with
    | whole always => cases always
    | inScope there => simp [Escapes, there] at escapes
    | declaredArray _ there named' free body =>
      have same := distinct there mem (named'.trans named.symm)
      exact ⟨free, _, same ▸ body, .inl rfl⟩
    | declared _ there named' free body resolves =>
      have same := distinct there mem (named'.trans named.symm)
      subst same
      exact ⟨free, _, body, .inr resolves⟩
    | arrayOf undeclared => exact absurd named (undeclared fact mem)
    | recordOf undeclared => exact absurd named (undeclared fact mem)
  · rintro ⟨free, type, body, array | resolves⟩
    · cases type with
      | array element => exact .declaredArray escapes mem named free body
      | _ => cases array
    · exact .declared escapes mem named free body resolves

theorem resolves_undeclared_iff {name : String} {origin : Option String} {arguments : List TypeExpr}
    (escapes : Escapes generics name arguments) (undeclared : Undeclared D name) :
    Resolves D blocked generics (.reference name origin arguments) ↔
      (name ∈ ["Array", "ReadonlyArray"] ∧ ∃ element, arguments = [element] ∧
        Resolves D blocked generics element) ∨
      (name = "Record" ∧ ∃ key value, arguments = [key, value]) := by
  constructor
  · intro resolves
    cases resolves with
    | whole always => cases always
    | inScope there => simp [Escapes, there] at escapes
    | declaredArray _ there named => exact absurd named (undeclared _ there)
    | declared _ there named => exact absurd named (undeclared _ there)
    | arrayOf _ builtin resolves => exact .inl ⟨builtin, _, rfl, resolves⟩
    | recordOf => exact .inr ⟨rfl, _, _, rfl⟩
  · rintro (⟨builtin, element, rfl, resolves⟩ | ⟨rfl, key, value, rfl⟩)
    · exact .arrayOf undeclared builtin resolves
    · exact .recordOf undeclared

theorem asks_declared (distinct : Set.InjOn Fact.name D) {fact : Fact} (mem : fact ∈ D)
    {name : String}
    (named : fact.name = name) {origin : Option String} {arguments : List TypeExpr}
    {question : Question}
    (asks : Asks D generics (.reference name origin arguments) question) :
    question = .declaration name ∨
      ∃ type, fact.body = .type type ∧ type.isArray = false ∧
        Asks D fact.generics type question := by
  cases asks with
  | declaration => exact .inl rfl
  | through _ there named' body array asks =>
    have same := distinct there mem (named'.trans named.symm)
    subst same
    exact .inr ⟨_, body, array, asks⟩
  | arrayOf undeclared => exact absurd named (undeclared fact mem)
  | text _ undeclared => exact absurd named (undeclared fact mem)

theorem asks_undeclared {name : String} (undeclared : Undeclared D name) {origin : Option String}
    {arguments : List TypeExpr} {question : Question}
    (asks : Asks D generics (.reference name origin arguments) question) :
    question = .text name ∨
      ∃ element, arguments = [element] ∧ Asks D generics element question := by
  cases asks with
  | declaration _ there named => exact absurd named (undeclared _ there)
  | through _ there named => exact absurd named (undeclared _ there)
  | arrayOf _ _ asks => exact .inr ⟨_, rfl, asks⟩
  | text => exact .inl rfl

end resolves

mutual

/-- Names that a type refers to, type parameters in scope aside. -/
def TypeExpr.names (generics : List String) : TypeExpr → List String
  | .primitive _ | .stringLiteral _ | .numberLiteral _ | .booleanLiteral _ | .enumeration _
  | .parameter _ => []
  | .enumLiteral enumName _ _ => enumName.toList
  | .union members => namesOfAll generics members
  | .object [] [signature] => signature.names generics
  | .object properties _ => namesOfProperties generics properties
  | .array element => element.names generics
  | .tuple elements => namesOfAll generics elements
  | .reference name _ arguments =>
    if generics.contains name && arguments.isEmpty then []
    else name :: namesOfAll generics arguments

def namesOfAll (generics : List String) : List TypeExpr → List String
  | [] => []
  | type :: rest => type.names generics ++ namesOfAll generics rest

def namesOfProperties (generics : List String) : List PropertyFact → List String
  | [] => []
  | property :: rest => property.names generics ++ namesOfProperties generics rest

def PropertyFact.names (generics : List String) : PropertyFact → List String
  | ⟨_, type, _, _, _, _, _⟩ => type.names generics

def IndexSignature.names (generics : List String) : IndexSignature → List String
  | ⟨_, value⟩ => value.names generics

end

theorem TypeExpr.names_record {generics : List String} {properties : List PropertyFact}
    {signatures : List IndexSignature}
    (record : ∀ signature, properties = [] → signatures = [signature] → False) :
    (TypeExpr.object properties signatures).names generics =
      namesOfProperties generics properties := by
  rw [TypeExpr.names]
  exact record

def defaultNames (f : Fact) : List String :=
  f.typeParameters.flatMap
    fun parameter => (parameter.default.map (TypeExpr.names f.generics)).getD []

def names (f : Fact) : List String :=
  match f.body with
  | .type type => f.defaultNames ++ type.names f.generics
  | .constant .. => []

def properties? (f : Fact) : Option (List PropertyFact) :=
  match f.body with
  | .type (.object [] [_]) => none
  | .type (.object properties _) => some properties
  | _ => none

def memberNames? (f : Fact) : Option (List String) :=
  match f.body with
  | .type type => type.memberNames?
  | .constant .. => none

/-- Records and enums, which have a node of their own at once. -/
def isImmediate (f : Fact) : Bool := f.properties?.isSome || f.memberNames?.isSome

/-- Names that a declaration refers to before it has a node. -/
def earlyNames (f : Fact) : List String :=
  if f.isImmediate then []
  else match f.body with
    | .type (.object ..) => f.defaultNames
    | .type type => f.defaultNames ++ type.names f.generics
    | .constant .. => []

section leads
variable (D : Set Fact)

def Refers (a b : String) : Prop := ∃ fact ∈ D, fact.name = a ∧ b ∈ fact.names

def RefersEarly (a b : String) : Prop := ∃ fact ∈ D, fact.name = a ∧ b ∈ fact.earlyNames

/-- Before the declaration `a` has a node, the declaration `b` may be called for. -/
def EarlyLeads (a b : String) : Prop :=
  ∃ first, RefersEarly D a first ∧ Relation.ReflTransGen (Refers D) first b

/-- No property of the record asks for a declaration that, before it has a node, leads to the
record. -/
def Grounded (fact : Fact) : Prop :=
  ∀ properties, fact.properties? = some properties → ∀ property ∈ properties,
    Resolves D nothing fact.generics property.type →
    ∀ name, Asks D fact.generics property.type (.declaration name) → ¬ EarlyLeads D name fact.name

end leads

theorem body_of_properties {f : Fact} {properties : List PropertyFact}
    (found : f.properties? = some properties) :
    ∃ signatures, f.body = .type (.object properties signatures) ∧
      ∀ signature, properties = [] → signatures = [signature] → False := by
  rw [properties?] at found
  split at found
  · cases found
  · rename_i signatures other body
    cases found
    exact ⟨signatures, body, other⟩
  · cases found

theorem properties_of_body {f : Fact} {properties : List PropertyFact}
    {signatures : List IndexSignature} (body : f.body = .type (.object properties signatures))
    (other : ∀ signature, properties = [] → signatures = [signature] → False) :
    f.properties? = some properties := by
  rw [properties?, body]
  split
  · rename_i same
    cases same
    exact (other _ rfl rfl).elim
  · rename_i same
    cases same
    rfl
  · rename_i no
    exact absurd rfl (no _ _)

theorem isImmediate_of_properties {f : Fact} (isRecord : f.properties?.isSome = true) :
    f.isImmediate = true := by
  rw [isImmediate, isRecord, Bool.true_or]

theorem isImmediate_of_memberNames {f : Fact} (isEnum : f.memberNames?.isSome = true) :
    f.isImmediate = true := by
  rw [isImmediate, isEnum, Bool.or_true]

theorem isImmediate_eq_false {f : Fact} :
    f.isImmediate = false ↔ f.properties? = none ∧ f.memberNames? = none := by
  simp [isImmediate]

theorem earlyNames_eq_names {f : Fact} {type : TypeExpr} (body : f.body = .type type)
    (other : f.isImmediate = false)
    (noObject : ∀ properties signatures, type ≠ .object properties signatures) :
    f.earlyNames = f.defaultNames ++ type.names f.generics := by
  rw [earlyNames, other, body]
  cases type with
  | object properties signatures => exact absurd rfl (noObject properties signatures)
  | _ => rfl

theorem earlyNames_subset_names (f : Fact) : f.earlyNames ⊆ f.names := by
  intro name mem
  rw [earlyNames] at mem
  rw [names]
  split at mem
  · cases mem
  · cases body : f.body with
    | constant => simp [body] at mem
    | type type =>
      rw [body] at mem
      cases type with
      | object => exact List.mem_append_left _ mem
      | _ => exact mem

theorem TypeExpr.only_of_memberNames {members : List TypeExpr} {names : List String}
    {type : TypeExpr}
    (found : (TypeExpr.union members).memberNames? = some names)
    (single : nonNull members = [type]) : ∃ text, type = .stringLiteral text := by
  simp only [memberNames?, single, List.isEmpty_cons, Bool.false_eq_true, if_false] at found
  cases type with
  | stringLiteral text => exact ⟨text, rfl⟩
  | _ => simp [literalTexts?] at found

theorem builds_of_memberNames {D : Set Fact} {blocked : String → Prop} {fact : Fact}
    {names : List String} (found : fact.memberNames? = some names) : Builds D blocked fact := by
  cases body : fact.body with
  | constant => simp [Fact.memberNames?, body] at found
  | type type =>
    simp only [Fact.memberNames?, body] at found
    refine ⟨type, body, .inr ?_⟩
    cases type with
    | enumeration entries => exact .whole rfl
    | union members =>
      rw [resolves_union_iff]
      by_cases several : (nonNull members).length = 1
      · obtain ⟨only, single⟩ := List.length_eq_one_iff.mp several
        obtain ⟨text, rfl⟩ := TypeExpr.only_of_memberNames found single
        exact .inr ⟨_, single, .whole rfl⟩
      · exact .inl several
    | _ => cases found

theorem not_asks_of_memberNames {D : Set Fact} {fact : Fact} {names : List String} {type : TypeExpr}
    {question : Question} (found : fact.memberNames? = some names) (body : fact.body = .type type) :
    ¬ Asks D fact.generics type question := by
  intro asks
  simp only [Fact.memberNames?, body] at found
  cases asks with
  | only single asks =>
    obtain ⟨text, rfl⟩ := TypeExpr.only_of_memberNames found single
    cases asks
  | _ => cases found

theorem not_earlyLeads_of_memberNames {D : Set Fact} (distinct : Set.InjOn Fact.name D)
    {fact : Fact}
    (mem : fact ∈ D) {names : List String} (found : fact.memberNames? = some names)
    (name : String) : ¬ EarlyLeads D fact.name name := by
  rintro ⟨first, ⟨other, there, named, early⟩, -⟩
  have same := distinct there mem named
  subst same
  simp [earlyNames, isImmediate, found] at early

/-- The answer from the nodes of a graph is that of the declarations: a name that is not declared is
that of no node, a member of a declared enum is found in one enum of that name only, and any other
member is found nowhere. -/
def Settled (D : Set Fact) (g : Graph) : Question → Prop
  | .declaration _ => True
  | .text name => ∀ (id : NodeId) (node : Node), g.nodes[id]? = some node →
      node.name ≠ nameOfTypeText name
  | .literal enumName member =>
    (HasMember D enumName member → ∀ (i j : NodeId) (a b : Node),
      g.nodes[i]? = some a → g.nodes[j]? = some b →
      hasMember member a.shape = true → enumName.any a.isCalled = true →
      hasMember member b.shape = true → enumName.any b.isCalled = true → i = j) ∧
    (¬ HasMember D enumName member → ∀ (id : NodeId) (node : Node), g.nodes[id]? = some node →
      hasMember member node.shape = false)

/-- All questions that decide on the type are settled. -/
def Clear (D : Set Fact) (g : Graph) (generics : List String) (type : TypeExpr) : Prop :=
  ∀ question, Asks D generics type question → Settled D g question

/-- The same for a declaration. Declared arrays ask nothing. -/
def ClearFact (D : Set Fact) (g : Graph) (fact : Fact) : Prop :=
  ∀ type, fact.body = .type type → type.isArray = false → Clear D g fact.generics type

/-- Nodes that all lookups take for the same. -/
structure Alike (a b : Node) : Prop where
  name : b.name = a.name
  formerName : b.formerName = a.formerName
  label : b.shape.label = a.shape.label
  members : ∀ member, hasMember member b.shape = hasMember member a.shape

theorem Alike.refl (a : Node) : Alike a a := ⟨rfl, rfl, rfl, fun _ => rfl⟩

theorem Alike.trans {a b c : Node} (first : Alike a b) (second : Alike b c) : Alike a c where
  name := second.name.trans first.name
  formerName := second.formerName.trans first.formerName
  label := second.label.trans first.label
  members member := (second.members member).trans (first.members member)

theorem Alike.isCalled {a b : Node} (alike : Alike a b) (name : String) :
    b.isCalled name = a.isCalled name := by
  rw [Node.isCalled, Node.isCalled, alike.name, alike.formerName]

/-- Nodes that are there stay, as far as lookups can tell. -/
def Persists (g g' : Graph) : Prop :=
  ∀ (id : NodeId) (node : Node), g.nodes[id]? = some node →
    ∃ node', g'.nodes[id]? = some node' ∧ Alike node node'

section persists
variable {D : Set Fact} {g g' : Graph} (persists : Persists g g')
include persists

theorem Settled.earlier {question : Question} (settled : Settled D g' question) :
    Settled D g question := by
  cases question with
  | declaration name => trivial
  | text name =>
    intro id node there called
    obtain ⟨node', there', alike⟩ := persists id node there
    exact settled id node' there' (alike.name.trans called)
  | literal enumName member =>
    refine ⟨fun has i j a b atI atJ memberA calledA memberB calledB => ?_,
      fun no id node there => ?_⟩
    · obtain ⟨a', atI', alikeA⟩ := persists i a atI
      obtain ⟨b', atJ', alikeB⟩ := persists j b atJ
      refine settled.1 has i j a' b' atI' atJ' (alikeA.members member ▸ memberA) ?_
        (alikeB.members member ▸ memberB) ?_
      · rw [funext alikeA.isCalled]
        exact calledA
      · rw [funext alikeB.isCalled]
        exact calledB
    · obtain ⟨node', there', alike⟩ := persists id node there
      exact alike.members member ▸ settled.2 no id node' there'

theorem Clear.earlier {generics : List String} {type : TypeExpr}
    (clear : Clear D g' generics type) : Clear D g generics type :=
  fun question asks => (clear question asks).earlier persists

theorem ClearFact.earlier {fact : Fact} (clear : ClearFact D g' fact) : ClearFact D g fact :=
  fun type body array => (clear type body array).earlier persists

end persists

end TypeLoom.Fact
