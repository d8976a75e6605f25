import TypeLoom.Graph.Basic
import TypeLoom.Text.Basic

/-! Registration: a node enters the graph under an identity key and a display name of its own. The
same key means the same node. A taken display name is numbered until a free one is found. -/
namespace TypeLoom.Graph

/-- A node without a name has no identity. -/
structure MissingIdentity where
  /-- Label of the node's shape. -/
  label : String
deriving DecidableEq, Repr

def MissingIdentity.message (e : MissingIdentity) : String :=
  "cannot derive identity key for " ++ e.label ++ " node: name is empty"

/-- Key of the node of all constants. -/
def constantsKey : String := "__constants__"

/-- Start of the names of class unions. -/
def unionStem : String := "Union"

def unionName (arity : Nat) : String :=
  unionStem ++ toString arity

/-- Give the node its identity key. Primitives and the constants have fixed keys; all others are
known by name and origin, and get an origin if they came without one. -/
def identify (g : Graph) (node : Node) : Except MissingIdentity (Node × Graph) :=
  match node.shape with
  | .primitive kind => .ok ({ node with key := kind.label }, g)
  | .constants _ => .ok ({ node with key := constantsKey }, g)
  | shape =>
    if Text.isBlankText node.name.toList then .error ⟨shape.label⟩
    else match node.origin with
      | some origin => .ok ({ node with key := node.name ++ "#" ++ origin }, g)
      | none =>
        let issued := g.issued + 1
        let origin := "synthetic-" ++ toString issued
        .ok ({ node with key := node.name ++ "#" ++ origin, origin := some origin },
          { g with issued := issued })

/-- The live node with a display name, as far as the name table knows it. -/
def liveByName (g : Graph) (name : String) : Option NodeId := do
  let id ← g.names.get? name
  let node ← g.nodes[id]?
  if g.isLive id && node.name == name then some id else none

def splitNumber (name : List Char) : List Char × List Char :=
  ((name.reverse.dropWhile Char.isDigit).reverse, (name.reverse.takeWhile Char.isDigit).reverse)

/-- The next name to try: one more than the number at the end, or a first number. A name of digits
only, or with a number of more than 64 bits, is not counted on. From 18446744073709551615 the count
goes on to the next number, where a counter of 64 bits would fail or begin again at 0. -/
def nextName (name : String) : String :=
  let (stem, digits) := splitNumber name.toList
  let number := digits.foldl (fun acc c => acc * 10 + (c.toNat - '0'.toNat)) 0
  if stem ≠ [] ∧ digits ≠ [] ∧ number < 0x10000000000000000 then
    String.ofList stem ++ toString (number + 1)
  else name ++ "1"

/-- The next name of a node. A class union that lost its own name becomes a base first. -/
def renamed (node : Node) : String :=
  match node.shape with
  | .classUnion arity =>
    if node.name = unionName arity then node.name ++ "Base" else nextName node.name
  | _ => nextName node.name

/-- Put `node` in the place of the live node `old`. -/
def supplant (g : Graph) (old : NodeId) (node : Node) : NodeId × Graph :=
  match g.nodes[old]? with
  | none => g.push node
  | some before =>
    let (new, g) := (g.freeName old before.name).push node
    (new, { g with
      redirects := g.redirects.insert old new
      keys := g.keys.insert before.key new }.forgetDigests)

def sameUnion : Shape → Shape → Bool
  | .classUnion a, .classUnion b => a == b
  | _, _ => false

/-- Append the node under the first free name. Of two class unions of one arity only that with the
higher score is kept. The names tried are different and all taken, so one step more than there are
names is enough. -/
def settle : (steps : Nat) → Graph → Node → NodeId × Graph
  | 0, g, node => g.push node
  | steps + 1, g, node =>
    match g.liveByName node.name with
    | none => g.push node
    | some other =>
      match g.nodes[other]? with
      | none => g.push node
      | some taken =>
        if sameUnion node.shape taken.shape then
          if taken.score < node.score then g.supplant other node
          else (other, { g with keys := g.keys.insert node.key other })
        else
          let name := renamed node
          let g := g.report .renamed node.name
            ("name already taken by " ++ taken.key ++ ", renamed to " ++ name)
          settle steps g { node with
            name := name
            formerName := some (node.formerName.getD node.name) }

/-- Add a node, or find the one with its identity. -/
def register (g : Graph) (node : Node) : Except MissingIdentity (NodeId × Graph) := do
  let (node, g) ← g.identify node
  match g.keys.get? node.key with
  | some existing => return (g.resolve existing, g)
  | none =>
    if node.shape.isPrimitive then return g.push node
    else return settle (g.names.size + 1) g node

/-- Put a node in the place of the one known by `key`, if there is one. -/
def replace (g : Graph) (key : String) (node : Node) :
    Except MissingIdentity (Option NodeId × Graph) := do
  match g.keys.get? key with
  | none => return (none, g)
  | some old =>
    let (node, g) ← g.identify node
    let (new, g) := g.supplant (g.resolve old) node
    return (some new, g)

/-- The node of a primitive type. -/
def primitive (g : Graph) (kind : Primitive) : NodeId × Graph :=
  match g.primitives.get? kind with
  | some id => (id, g)
  | none =>
    let (id, g) := g.push { name := kind.label, key := kind.label, shape := .primitive kind }
    (id, { g with primitives := g.primitives.insert kind id })

/-- The generic node of all unions of `arity` classes. -/
def unionBase (g : Graph) (arity : Nat) : Except MissingIdentity (NodeId × Graph) :=
  match g.unionBases.get? arity with
  | some existing => .ok (g.resolve existing, g)
  | none => do
    let (id, g) ← g.register
      { name := unionName arity, shape := .classUnion arity, flags := { internal := true } }
    return (id, { g with unionBases := g.unionBases.insert arity id })

/-- The node of all constants, made on first use. -/
def constantsNode (g : Graph) : NodeId × Graph :=
  match g.constants with
  | some id => (g.resolve id, g)
  | none =>
    let node : Node := { name := constantsKey, key := constantsKey, shape := .constants [] }
    let (id, g) := g.push node.asPublic
    (id, { g with constants := some id })

def addConstant (g : Graph) (constant : Constant) : NodeId × Graph :=
  let (id, g) := g.constantsNode
  (id, (g.modifyNode id fun n => { n with shape := n.shape.addConstant constant }).touch)

end TypeLoom.Graph
