import TypeLoom.Graph.Merge
import TypeLoom.Graph.Query

/-! Keeping what the output needs: public and rendered nodes and everything they refer to. What is
left may free names, and nodes get back the names that they had to give up. -/
namespace TypeLoom.Graph

/-- Nodes reached so far, and those whose references are still to be followed. -/
structure Search where
  reached : List NodeId
  queue : List NodeId

def Search.visit (s : Search) (id : NodeId) : Search :=
  if s.reached.contains id then s else ⟨s.reached ++ [id], s.queue ++ [id]⟩

/-- Follow references until the queue is empty. Every node is queued at most once. -/
def search (g : Graph) : (steps : Nat) → Search → List NodeId
  | 0, s => s.reached
  | steps + 1, s =>
    match s.queue with
    | [] => s.reached
    | id :: rest => search g steps ((g.outgoing id).foldl Search.visit { s with queue := rest })

def roots (g : Graph) : List NodeId :=
  (g.liveNodes.filter fun entry => entry.2.isRoot).map Prod.fst

/-- Everything that the roots lead to. -/
def reachable (g : Graph) : List NodeId :=
  g.search (g.nodes.size + 1) ⟨g.roots, g.roots⟩

/-- Mark the nodes that some retained node refers to. -/
def markDescendants (g : Graph) (retained : List NodeId) : Graph :=
  (retained.flatMap g.outgoing).foldl
    (fun g id => g.modifyNode id fun n => { n with flags := { n.flags with descendant := true } }) g

def rename (g : Graph) (id : NodeId) (name : String) : Graph :=
  match g.nodes[id]? with
  | none => g
  | some node =>
    let g := (g.modifyNode id fun n => { n with name := name }).freeName id node.name
    { g with names := g.names.insert name id }

/-- Give nodes back their former names, in order, as long as these are free; `taken` are the names
in use. -/
def restoreNames : Graph → (taken : List String) → List NodeId → Graph
  | g, _, [] => g
  | g, taken, id :: rest =>
    match g.nodes[id]? with
    | none => restoreNames g taken rest
    | some node =>
      match node.formerName with
      | none => restoreNames g taken rest
      | some former =>
        if taken.contains former then restoreNames g taken rest
        else
          let g := (g.rename id former).modifyNode id fun n => { n with formerName := none }
          restoreNames g (former :: taken.filter (· ≠ node.name)) rest

def retainedNodes (g : Graph) : List (NodeId × Node) :=
  g.liveNodes.filter fun entry => g.isRetained entry.1

/-- Retain what the roots lead to, and count the live nodes that are not retained. -/
def prune (g : Graph) : Nat × Graph :=
  let g := g.recordEdges
  let retained := g.reachable
  let g := g.markDescendants retained
  let pruned := g.liveCount - retained.length
  let g := { g with retained := some retained }
  let kept := g.retainedNodes
  (pruned, restoreNames g (kept.map fun entry => entry.2.name) (kept.map Prod.fst))

end TypeLoom.Graph
