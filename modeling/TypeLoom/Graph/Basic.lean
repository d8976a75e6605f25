import TypeLoom.Finding
import TypeLoom.Graph.Shape
import TypeLoom.Table

/-! The graph of types. Nodes are numbered in the order in which they come and are never removed:
a node that is replaced or merged leaves a redirect to the node that stands for it, and lookups
follow redirects. A node without a redirect is live. -/
namespace TypeLoom

namespace Graph

structure Flags where
  internal : Bool := false
  isPublic : Bool := false
  /-- Some retained node refers to this one. -/
  descendant : Bool := false
  rendered : Bool := false
  /-- Made for a type without a name of its own. -/
  anonymous : Bool := false
deriving DecidableEq, Repr

structure Node where
  name : String
  /-- Identity key; empty as long as the node is not in a graph. -/
  key : String := ""
  origin : Option String := none
  shape : Shape
  flags : Flags := {}
  /-- Depth of nesting in the declaration that the node comes from. -/
  level : Nat := 0
  comment : Option String := none
  /-- The name before it was taken by another node. -/
  formerName : Option String := none

namespace Node

/-- A node that is part of the output by its own right. -/
def asPublic (n : Node) : Node :=
  { n with flags := { n.flags with isPublic := true, rendered := true } }

/-- How much a node deserves to stand for others of the same shape. -/
def score (n : Node) : Int :=
  (if n.flags.rendered then 100 else 0) + (if n.flags.isPublic then 100 else 0) - (n.level : Int)

/-- Roots of what the output needs. -/
def isRoot (n : Node) : Bool :=
  n.flags.isPublic || n.flags.rendered

end Node

/-- Digests that have been computed since the graph last changed. -/
structure DigestCache where
  /-- Digests of nodes that were asked for. -/
  asked : Table NodeId String := {}
  /-- Digests of nodes from which no cycle is reached. -/
  acyclic : Table NodeId String := {}
  /-- The graph has changed since. -/
  stale : Bool := false

end Graph

open TypeLoom.Graph in
structure Graph where
  nodes : Array Node := #[]
  /-- Nodes by identity key. -/
  keys : Table String NodeId := {}
  /-- Nodes by display name. -/
  names : Table String NodeId := {}
  redirects : Table NodeId NodeId := {}
  primitives : Table Primitive NodeId := {}
  /-- The node of all constants. -/
  constants : Option NodeId := none
  /-- Bases of class unions by arity. -/
  unionBases : Table Nat NodeId := {}
  /-- References between nodes when they were last recorded. -/
  edges : Table NodeId (List NodeId) := {}
  /-- Nodes kept by the last pruning. -/
  retained : Option (List NodeId) := none
  /-- Number of origins issued to nodes that came without one. -/
  issued : Nat := 0
  findings : List Finding := []
  cache : DigestCache := {}

namespace Graph

def empty : Graph := {}

/-- Follow at most `steps` redirects. -/
def follow (redirects : Table NodeId NodeId) : (steps : Nat) → NodeId → NodeId
  | 0, id => id
  | steps + 1, id =>
    match redirects.get? id with
    | some next => follow redirects steps next
    | none => id

/-- The node that stands for `id`. -/
def resolve (g : Graph) (id : NodeId) : NodeId :=
  follow g.redirects (g.redirects.size + 1) id

def isLive (g : Graph) (id : NodeId) : Bool :=
  decide (id < g.nodes.size) && !g.redirects.contains id

def liveIds (g : Graph) : List NodeId :=
  (List.range g.nodes.size).filter fun id => !g.redirects.contains id

def liveCount (g : Graph) : Nat :=
  g.nodes.size - g.redirects.size

/-- The node that stands for `id`, if `id` exists. -/
def node? (g : Graph) (id : NodeId) : Option Node :=
  g.nodes[g.resolve id]?

/-- Live nodes with their numbers. -/
def liveNodes (g : Graph) : List (NodeId × Node) :=
  g.liveIds.filterMap fun id => (g.nodes[id]?).map (id, ·)

def report (g : Graph) (kind : Finding.Kind) (subject message : String) : Graph :=
  { g with findings := g.findings ++ [⟨kind, subject, message⟩] }

/-- Take all findings out. -/
def takeFindings (g : Graph) : List Finding × Graph :=
  (g.findings, { g with findings := [] })

/-! ### Changes -/

/-- Digests are no longer those of this graph. -/
def touch (g : Graph) : Graph :=
  { g with cache := { g.cache with stale := true } }

/-- Forget all digests. -/
def forgetDigests (g : Graph) : Graph :=
  { g with cache := {} }

def modifyNode (g : Graph) (id : NodeId) (f : Node → Node) : Graph :=
  { g with nodes := g.nodes.modify id f }

/-- Change the shape of the node that stands for `id`. -/
def modifyShape (g : Graph) (id : NodeId) (f : Shape → Shape) : Graph :=
  (g.modifyNode (g.resolve id) fun n => { n with shape := f n.shape }).touch

def addProperty (g : Graph) (id : NodeId) (property : Property) : Graph :=
  g.modifyShape id (Shape.addProperty · property)

def addMember (g : Graph) (id : NodeId) (member : Member) : Graph :=
  g.modifyShape id (Shape.addMember · member)

def addParameter (g : Graph) (id : NodeId) (parameter : Parameter) : Graph :=
  g.modifyShape id (Shape.addParameter · parameter)

def setShape (g : Graph) (id : NodeId) (shape : Shape) : Graph :=
  g.modifyShape id fun _ => shape

/-- Append a node. A primitive does not take a display name from another node. -/
def push (g : Graph) (node : Node) : NodeId × Graph :=
  let id := g.nodes.size
  let names :=
    if node.shape.isPrimitive && g.names.contains node.name then g.names
    else g.names.insert node.name id
  (id, { g with
    nodes := g.nodes.push node
    keys := g.keys.insert node.key id
    names := names }.touch)

/-- Free the display name of a node, if it is the node's. -/
def freeName (g : Graph) (id : NodeId) (name : String) : Graph :=
  if g.names.get? name = some id then { g with names := g.names.erase name } else g

end Graph

end TypeLoom
