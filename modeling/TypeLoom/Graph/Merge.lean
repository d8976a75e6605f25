import TypeLoom.Graph.Digest

/-! Merging nodes of equal shape. In every pass nodes with equal digests are merged into the one
with the highest score; merging may make other nodes equal, so passes are repeated until one merges
nothing. -/
namespace TypeLoom.Graph

/-- Let every live node refer to live nodes directly. -/
def canonicalize (g : Graph) : Graph :=
  { g with nodes := g.nodes.mapIdx fun id node =>
      if g.redirects.contains id then node
      else { node with shape := node.shape.mapNodes g.resolve } }

/-- Record for every live node the nodes it refers to, in order and once each. -/
def recordEdges (g : Graph) : Graph :=
  { g with edges := ⟨g.liveNodes.map fun (id, node) =>
      (id, ((node.shape.outgoing.map g.resolve).mergeSort fun a b => decide (a ≤ b)).eraseDups)⟩ }

/-- The recorded references of a node. -/
def outgoing (g : Graph) (id : NodeId) : List NodeId :=
  (g.edges.get? (g.resolve id)).getD []

/-- Put a node into the bucket of its digest, a new bucket coming last. -/
def addToBucket (digest : String) (id : NodeId) :
    List (String × List NodeId) → List (String × List NodeId)
  | [] => [(digest, [id])]
  | (own, ids) :: rest =>
    if own = digest then (own, ids ++ [id]) :: rest
    else (own, ids) :: addToBucket digest id rest

/-- Nodes of equal digest, in the order in which they come. -/
def buckets (digests : List (NodeId × String)) : List (List NodeId) :=
  (digests.foldl (fun groups (id, digest) => addToBucket digest id groups) []).map Prod.snd

/-- Let `survivor` stand for `loser`: it takes over what makes a node part of the output, and has a
name if either had one. -/
def absorb (g : Graph) (survivor loser : NodeId) : Graph :=
  match g.nodes[loser]? with
  | none => g
  | some lost =>
    let g := g.modifyNode survivor fun n => { n with flags := { n.flags with
      rendered := n.flags.rendered || lost.flags.rendered
      isPublic := n.flags.isPublic || lost.flags.isPublic
      anonymous := n.flags.anonymous && lost.flags.anonymous } }
    let g := g.freeName loser lost.name
    { g with
      keys := g.keys.insert lost.key survivor
      redirects := g.redirects.insert loser survivor }

def scoreOf (g : Graph) (id : NodeId) : Int :=
  ((g.nodes[id]?).map Node.score).getD 0

/-- Highest score first; of equal ones the earlier node first. -/
def byScore (g : Graph) (ids : List NodeId) : List NodeId :=
  ids.mergeSort fun a b => decide (g.scoreOf b ≤ g.scoreOf a)

/-- Merge a bucket, and count the nodes that are no longer live. -/
def mergeBucket (g : Graph) (ids : List NodeId) : Nat × Graph :=
  match g.byScore ids with
  | [] => (0, g)
  | survivor :: losers => (losers.length, losers.foldl (fun g loser => g.absorb survivor loser) g)

def mergeBuckets : Graph → List (List NodeId) → Nat × Graph
  | g, [] => (0, g)
  | g, ids :: rest =>
    let (count, g) := g.mergeBucket ids
    let (others, g) := mergeBuckets g rest
    (count + others, g)

def mergePass (hash : Hash) (g : Graph) : Nat × Graph :=
  let g := g.forgetDigests.canonicalize
  let (digests, g) := g.digests hash g.liveIds
  let (count, g) := g.mergeBuckets (buckets digests)
  (count, if count = 0 then g else g.canonicalize)

/-- Passes until one merges nothing. Every other pass makes a live node less. -/
def mergePasses (hash : Hash) : (steps : Nat) → Graph → Nat × Graph
  | 0, g => (0, g)
  | steps + 1, g =>
    let (count, g) := g.mergePass hash
    if count = 0 then (0, g)
    else
      let (others, g) := mergePasses hash steps g
      (count + others, g)

/-- Merge all nodes of equal shape, record references, and count the nodes merged away. -/
def consolidate (hash : Hash) (g : Graph) : Nat × Graph :=
  let (count, g) := mergePasses hash (g.liveCount + 1) g
  (count, g.recordEdges)

end TypeLoom.Graph
