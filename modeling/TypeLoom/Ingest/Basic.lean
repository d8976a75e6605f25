import TypeLoom.Fact.Basic
import TypeLoom.Graph.Query
import TypeLoom.Literal.Evaluate
import TypeLoom.Name.Render
import TypeLoom.Settings.Basic

/-! Ingest puts declaration facts into a graph. A declaration is built when it is first needed, and
what was built before an error stays. -/
namespace TypeLoom

namespace Ingest
open TypeLoom.Graph

/-- What an ingest works on. -/
structure Context where
  settings : Settings
  facts : List Fact

/-- The graph so far, and the nodes of the declarations built so far by their places in the list of
facts. -/
structure State where
  graph : Graph
  built : Table Nat NodeId := {}

end Ingest

/-- Steps of an ingest. An error does not undo the steps before it. -/
abbrev Ingest := ExceptT Graph.MissingIdentity (StateM Ingest.State)

namespace Ingest
open TypeLoom.Graph

/-- Type declarations with their places. -/
def Context.typeFacts (c : Context) : List (Nat × Fact) :=
  (c.facts.zipIdx.map fun (f, i) => (i, f)).filter fun entry => entry.2.isType

/-- Places of the type declarations with a name. -/
def Context.placesNamed (c : Context) (name : String) : List Nat :=
  (c.typeFacts.filter fun entry => entry.2.name == name).map Prod.fst

/-- Place of the last type declaration with an origin. -/
def Context.placeOfOrigin? (c : Context) (origin : String) : Option Nat :=
  ((c.typeFacts.filter fun entry => entry.2.origin == some origin).map Prod.fst).getLast?

/-- Where a type is met: the prefix of names made up there, the level of nesting and the type
parameters that can be used. -/
structure Scope where
  name : String
  level : Nat
  generics : List String

def Scope.nested (s : Scope) (name : String) : Scope :=
  ⟨name, s.level + 1, s.generics⟩

/-- A type use, and whether the type also admitted null. -/
structure Resolved where
  type : TypeUse
  nullable : Bool := false

def Resolved.deepen (r : Resolved) : Resolved :=
  ⟨r.type.deepen 1, r.nullable⟩

/-- Name made up for a part of a type: the type, the part and what it is. -/
def madeUpName (parent member suffix : String) : String :=
  Name.pascal parent ++ Name.pascal member ++ suffix

/-! ### Steps on the graph -/

def getGraph : Ingest Graph := do
  return (← get).graph

def modifyGraph (f : Graph → Graph) : Ingest Unit :=
  modify fun s => { s with graph := f s.graph }

/-- A step of the graph with a result. -/
def withGraph (f : Graph → α × Graph) : Ingest α := do
  let s ← get
  let (result, graph) := f s.graph
  set { s with graph := graph }
  return result

/-- A step of the graph that may fail. -/
def tryGraph (f : Graph → Except MissingIdentity (α × Graph)) : Ingest α := do
  let s ← get
  match f s.graph with
  | .error e => throw e
  | .ok (result, graph) =>
    set { s with graph := graph }
    return result

theorem run_get_bind (next : State → Ingest α) (s : State) :
    (get >>= next).run.run s = (next s).run.run s := rfl

theorem run_getGraph_bind (next : Graph → Ingest α) (s : State) :
    (getGraph >>= next).run.run s = (next s.graph).run.run s := rfl

theorem run_tryGraph_ok {f : Graph → Except MissingIdentity (α × Graph)} {s : State} {result : α}
    {graph : Graph} (done : f s.graph = .ok (result, graph)) :
    (tryGraph f).run.run s = (.ok result, { s with graph := graph }) := by
  rw [tryGraph, run_get_bind, done]
  rfl

theorem run_tryGraph_error {f : Graph → Except MissingIdentity (α × Graph)} {s : State}
    {e : MissingIdentity} (failed : f s.graph = .error e) :
    (tryGraph f).run.run s = (.error e, s) := by
  rw [tryGraph, run_get_bind, failed]
  rfl

def report (kind : Finding.Kind) (subject message : String) : Ingest Unit :=
  modifyGraph (·.report kind subject message)

def markBuilt (place : Nat) (id : NodeId) : Ingest Unit :=
  modify fun s => { s with built := s.built.insert place id }

def built? (place : Nat) : Ingest (Option NodeId) := do
  let s ← get
  return (s.built.get? place).map s.graph.resolve

def primitiveUse (kind : Primitive) : Ingest TypeUse := do
  return .ofNode (← withGraph (·.primitive kind))

/-- A type that could not be resolved counts as `object`. -/
def orObject : Option Resolved → Ingest TypeUse
  | some resolved => return resolved.type
  | none => primitiveUse .object

/-- Register the node of a declaration. -/
def registerNamed (fact : Fact) (shape : Shape) : Ingest NodeId :=
  tryGraph (·.register {
    name := fact.name
    origin := fact.origin
    shape := shape
    flags := {
      internal := fact.internal
      isPublic := fact.isPublic
      rendered := fact.shouldRender }
    level := fact.level
    comment := fact.comment })

/-- Register a node for a type without a name. -/
def registerAnonymous (name : String) (shape : Shape) (level : Nat) : Ingest NodeId :=
  tryGraph (·.register {
    name := name
    shape := shape
    flags := { internal := true, anonymous := true }
    level := level })

/-! ### Initializers -/

/-- The value of an initializer. What is no constant becomes null with a note in the comment. -/
def initializerValue (subject text : String) (comment : Option String) :
    Ingest (Literal.Value × Option String) := do
  match Literal.evaluate text with
  | .ok value => return (value, comment)
  | .error e =>
    report .unresolvedInitializer subject ("`" ++ text ++ "`: " ++ e.message)
    let note := "Initializer `" ++ text ++ "` is not a constant expression."
    match comment with
    | some existing => return (.null, some (existing ++ "\n" ++ note))
    | none => return (.null, some note)

mutual

/-- The type of a constant without a declared type. -/
def inferUse : Literal.Value → Ingest TypeUse
  | .null => primitiveUse .object
  | .bool _ => primitiveUse .boolean
  | .number _ => primitiveUse .number
  | .text _ => primitiveUse .string
  | .array items => do
    match ← inferItems none items with
    | some element => return element.deepen 1
    | none => return (← primitiveUse .object).deepen 1

/-- The common type of array items, nulls aside; items of different types have type `object`. -/
def inferItems (element : Option TypeUse) : List Literal.Value → Ingest (Option TypeUse)
  | [] => return element
  | item :: rest => do
    if item.isNull then inferItems element rest
    else
      let inferred ← inferUse item
      match element with
      | none => inferItems (some inferred) rest
      | some known =>
        if known.same inferred then inferItems (some known) rest
        else inferItems (some (← primitiveUse .object)) rest

end

end Ingest

end TypeLoom
