import TypeLoom.Proofs.Operations

/-! What a pruning retains. The search from the roots ends with everything that they lead to, so
with a node all nodes are retained that it refers to. A pruning does not change what the search
sees, and a second one retains the same. -/
namespace TypeLoom

theorem Table.get?_tabulate {κ ν : Type} [DecidableEq κ] (f : κ → Option ν) (keys : List κ)
    (key : κ) : (⟨keys.filterMap fun k => (f k).map (k, ·)⟩ : Table κ ν).get? key =
      if key ∈ keys then f key else none := by
  rw [Table.get?]
  induction keys with
  | nil => rfl
  | cons k rest ih =>
    rw [List.filterMap_cons]
    cases value : f k with
    | none =>
      by_cases same : key = k
      · subst same
        simp only [Option.map_none, ih, value, List.mem_cons_self, ite_self]
      · simpa [same] using ih
    | some v =>
      by_cases same : key = k
      · subst same
        simp [value]
      · simpa [same, Ne.symm same] using ih

namespace Graph

theorem foldl_visit (targets : List NodeId) (s : Search) : ∃ fresh,
    targets.foldl Search.visit s = ⟨s.reached ++ fresh, s.queue ++ fresh⟩ ∧
      (s.reached.Nodup → (s.reached ++ fresh).Nodup) ∧
      ∀ id, id ∈ s.reached ++ fresh ↔ id ∈ s.reached ∨ id ∈ targets := by
  induction targets generalizing s with
  | nil => exact ⟨[], by simp⟩
  | cons target rest ih =>
    rw [List.foldl_cons, Search.visit]
    by_cases known : target ∈ s.reached
    · obtain ⟨fresh, result, distinct, member⟩ := ih s
      rw [if_pos (List.contains_iff_mem.mpr known)]
      refine ⟨fresh, result, distinct, fun id => (member id).trans ?_⟩
      grind
    · obtain ⟨fresh, result, distinct, member⟩ := ih ⟨s.reached ++ [target], s.queue ++ [target]⟩
      rw [if_neg (fun found => known (List.contains_iff_mem.mp found))]
      refine ⟨target :: fresh, ?_, ?_, ?_⟩
      · rw [result]
        simp
      · intro nodup
        have extended := distinct (List.nodup_append.mpr ⟨nodup, by simp, by grind⟩)
        simpa using extended
      · intro id
        have := member id
        simp only [List.append_assoc, List.singleton_append, List.mem_append,
          List.mem_cons] at this ⊢
        grind

/-- A search under way: nodes that are reached and no longer queued have had their references
followed. -/
structure Search.Sweeps (g : Graph) (s : Search) : Prop where
  distinct : s.reached.Nodup
  queued : s.queue ⊆ s.reached
  followed : ∀ id ∈ s.reached, id ∈ s.queue ∨ g.outgoing id ⊆ s.reached

theorem Search.Sweeps.next {g : Graph} {id : NodeId} {reached rest : List NodeId}
    (sweeps : Search.Sweeps g ⟨reached, id :: rest⟩) :
    Search.Sweeps g ((g.outgoing id).foldl Search.visit ⟨reached, rest⟩) := by
  obtain ⟨fresh, result, distinct, member⟩ := foldl_visit (g.outgoing id) ⟨reached, rest⟩
  dsimp only at result distinct member
  rw [result]
  have sub : reached ⊆ reached ++ fresh := List.subset_append_left _ _
  refine ⟨distinct sweeps.distinct, ?_, ?_⟩
  · have kept : rest ⊆ reached := List.Subset.trans (List.subset_cons_self id rest) sweeps.queued
    exact List.append_subset.mpr ⟨List.Subset.trans kept sub, List.subset_append_right _ _⟩
  · intro other inside
    rcases List.mem_append.mp inside with old | new
    · rcases sweeps.followed other old with queued | done
      · rcases List.mem_cons.mp queued with rfl | later
        · exact .inr fun target refers => (member target).mpr (.inr refers)
        · exact .inl (List.mem_append_left _ later)
      · exact .inr (List.Subset.trans done sub)
    · exact .inl (List.mem_append_right _ new)

section search
variable {g : Graph} {within : NodeId → Prop} (bounded : ∀ id, within id → id < g.nodes.size)
  (leads : ∀ id, within id → ∀ target ∈ g.outgoing id, within target)
include bounded leads

theorem search_closed {steps : Nat} {s : Search} (sweeps : s.Sweeps g)
    (inside : ∀ id ∈ s.reached, within id)
    (balance : s.reached.length + steps = s.queue.length + g.nodes.size + 1) :
    ∀ id ∈ g.search steps s, within id ∧ g.outgoing id ⊆ g.search steps s := by
  induction steps generalizing s with
  | zero =>
    have few : s.reached.length ≤ (List.range g.nodes.size).length :=
      sweeps.distinct.length_le_of_subset fun id member =>
        List.mem_range.mpr (bounded id (inside id member))
    rw [List.length_range] at few
    omega
  | succ steps ih =>
    obtain ⟨reached, queue⟩ := s
    cases queue with
    | nil =>
      rw [search]
      intro id member
      rcases sweeps.followed id member with queued | done
      · cases queued
      · exact ⟨inside id member, done⟩
    | cons id rest =>
      rw [search]
      have own : within id := inside id (sweeps.queued List.mem_cons_self)
      obtain ⟨fresh, result, -, member⟩ := foldl_visit (g.outgoing id) ⟨reached, rest⟩
      refine ih sweeps.next ?_ ?_
      · rw [result]
        intro other new
        rcases (member other).mp new with old | refers
        · exact inside other old
        · exact leads id own other refers
      · rw [result]
        simp only [List.length_append, List.length_cons] at balance ⊢
        omega

end search

theorem liveNodes_filter (g : Graph) (p : NodeId → Node → Bool) :
    (g.liveNodes.filter fun entry => p entry.1 entry.2).map Prod.fst =
      g.liveIds.filter fun id => (g.nodes[id]?).any (p id) := by
  rw [liveNodes]
  induction g.liveIds with
  | nil => rfl
  | cons id rest ih =>
    rw [List.filterMap_cons, List.filter_cons]
    cases g.nodes[id]? with
    | none => simpa using ih
    | some node =>
      by_cases holds : p id node = true
      · simpa [holds] using ih
      · simpa [holds] using ih

theorem mem_roots (g : Graph) (id : NodeId) :
    id ∈ g.roots ↔ g.isLive id = true ∧ (g.nodes[id]?).any Node.isRoot = true := by
  rw [roots, liveNodes_filter g fun _ node => node.isRoot, List.mem_filter, mem_liveIds]

theorem roots_nodup (g : Graph) : g.roots.Nodup := by
  rw [roots, liveNodes_filter g fun _ node => node.isRoot]
  exact g.liveIds_nodup.filter _

def references (g : Graph) (shape : Shape) : List NodeId :=
  ((shape.outgoing.map g.resolve).mergeSort fun a b => decide (a ≤ b)).eraseDups

theorem mem_references (g : Graph) (shape : Shape) (target : NodeId) :
    target ∈ g.references shape ↔ ∃ id ∈ shape.outgoing, g.resolve id = target := by
  rw [references, List.mem_eraseDups, List.mem_mergeSort, List.mem_map]

theorem recordEdges_edges (g : Graph) : g.recordEdges.edges = ⟨g.liveIds.filterMap fun id =>
    (((g.nodes.map Node.shape)[id]?).map g.references).map (id, ·)⟩ := by
  simp only [recordEdges, liveNodes, List.map_filterMap, Array.getElem?_map, Option.map_map]
  rfl

theorem recordEdges_outgoing {g : Graph} {id : NodeId} (live : g.isLive id = true) :
    g.recordEdges.outgoing id =
      (((g.nodes.map Node.shape)[id]?).map g.references).getD [] := by
  have here : g.recordEdges.resolve id = id := resolve_of_isLive live
  rw [outgoing, here, recordEdges_edges, Table.get?_tabulate, if_pos ((g.mem_liveIds id).mpr live)]

theorem isLive_of_mem_outgoing {g : Graph} (sound : g.Sound) (closed : g.Closed)
    {id target : NodeId} (live : g.isLive id = true) (refers : target ∈ g.recordEdges.outgoing id) :
    g.isLive target = true := by
  rw [recordEdges_outgoing live, Array.getElem?_map] at refers
  cases found : g.nodes[id]? with
  | none => simp [found] at refers
  | some node =>
    rw [found] at refers
    obtain ⟨other, inside, rfl⟩ := (g.mem_references node.shape target).mp refers
    exact sound.isLive_resolve (closed found other inside)

section reachable
variable {g : Graph} (sound : g.Sound) (closed : g.Closed) {id : NodeId}
  (reached : id ∈ g.recordEdges.reachable)
include sound closed reached

theorem reachable_closed : g.isLive id = true ∧
    g.recordEdges.outgoing id ⊆ g.recordEdges.reachable := by
  have start : Search.Sweeps g.recordEdges ⟨g.recordEdges.roots, g.recordEdges.roots⟩ :=
    ⟨roots_nodup _, List.Subset.refl _, fun _ root => .inl root⟩
  refine search_closed (fun id live => ((g.recordEdges.isLive_iff id).mp live).1)
    (fun id live target => isLive_of_mem_outgoing sound closed live) start ?_ ?_ id reached
  · intro id root
    exact ((mem_roots g.recordEdges id).mp root).1
  · exact (Nat.add_assoc _ _ _).symm

theorem mem_reachable_of_refers {node : Node} (found : g.nodes[id]? = some node) {target : NodeId}
    (refers : target ∈ node.shape.outgoing) : g.resolve target ∈ g.recordEdges.reachable := by
  obtain ⟨live, follows⟩ := reachable_closed sound closed reached
  apply follows
  rw [recordEdges_outgoing live, Array.getElem?_map, found]
  exact (g.mem_references node.shape _).mpr ⟨target, refers, rfl⟩

end reachable

/-- A graph in which what the roots lead to is retained, with names as they were. -/
def marked (g : Graph) : Graph :=
  { g.recordEdges.markDescendants g.recordEdges.reachable with
    retained := some g.recordEdges.reachable }

theorem prune_eq (g : Graph) : g.prune.2 = restoreNames g.marked
    (g.marked.retainedNodes.map fun entry => entry.2.name)
    (g.marked.retainedNodes.map Prod.fst) := by
  rw [prune]
  dsimp only
  rw [marked]

theorem markDescendants_map {α : Type} {view : Node → α}
    (kept : ∀ node : Node,
      view { node with flags := { node.flags with descendant := true } } = view node)
    (g : Graph) (retained : List NodeId) :
    (g.markDescendants retained).nodes.map view = g.nodes.map view := by
  rw [markDescendants]
  generalize retained.flatMap g.outgoing = ids
  induction ids generalizing g with
  | nil => rfl
  | cons id rest ih =>
    rw [List.foldl_cons, ih]
    exact map_modifyNode g id kept

theorem rename_retained (g : Graph) (id : NodeId) (name : String) :
    (g.rename id name).retained = g.retained := by
  rw [rename]
  cases g.nodes[id]? with
  | none => rfl
  | some node =>
    dsimp only [freeName]
    split_ifs <;> rfl

theorem restoreNames_retained (g : Graph) (taken : List String) (ids : List NodeId) :
    (restoreNames g taken ids).retained = g.retained := by
  induction ids generalizing g taken with
  | nil => rfl
  | cons id rest ih =>
    rw [restoreNames]
    cases g.nodes[id]? with
    | none => exact ih g taken
    | some node =>
      dsimp only
      cases node.formerName with
      | none => exact ih g taken
      | some former =>
        dsimp only
        split_ifs with inUse
        · exact ih g taken
        · rw [ih]
          exact rename_retained g id former

/-- What of a node does not depend on its name. -/
structure NameFree {α : Type} (view : Node → α) : Prop where
  name : ∀ (node : Node) (name : String), view { node with name := name } = view node
  formerName : ∀ node : Node, view { node with formerName := none } = view node

section nameFree
variable {α : Type} {view : Node → α} (nameFree : NameFree view)
include nameFree

theorem rename_map (g : Graph) (id : NodeId) (name : String) :
    (g.rename id name).nodes.map view = g.nodes.map view := by
  rw [rename]
  cases g.nodes[id]? with
  | none => rfl
  | some node =>
    dsimp only
    rw [freeName_nodes]
    exact map_modifyNode g id fun node => nameFree.name node name

theorem restoreNames_map (g : Graph) (taken : List String) (ids : List NodeId) :
    (restoreNames g taken ids).nodes.map view = g.nodes.map view := by
  induction ids generalizing g taken with
  | nil => rfl
  | cons id rest ih =>
    rw [restoreNames]
    cases g.nodes[id]? with
    | none => exact ih g taken
    | some node =>
      dsimp only
      cases node.formerName with
      | none => exact ih g taken
      | some former =>
        dsimp only
        split_ifs with inUse
        · exact ih g taken
        · rw [ih, map_modifyNode _ id nameFree.formerName, rename_map nameFree]

end nameFree

section congruence
variable {g g' : Graph} (same : SameShapes g g')
  (isRoot : g'.nodes.map Node.isRoot = g.nodes.map Node.isRoot)
include same

theorem liveIds_congr : g'.liveIds = g.liveIds := by
  rw [liveIds, liveIds, same.redirects, same.size_eq]

theorem recordEdges_edges_congr : g'.recordEdges.edges = g.recordEdges.edges := by
  have references : g'.references = g.references := by
    funext shape
    rw [references, references, funext same.resolve_eq]
  rw [recordEdges_edges, recordEdges_edges, liveIds_congr same, same.shapes, references]

include isRoot

theorem roots_congr : g'.roots = g.roots := by
  have own (id : NodeId) : (g'.nodes[id]?).any Node.isRoot = (g.nodes[id]?).any Node.isRoot := by
    have flag : (g'.nodes[id]?).map Node.isRoot = (g.nodes[id]?).map Node.isRoot := by
      rw [← Array.getElem?_map, ← Array.getElem?_map, isRoot]
    have any (node : Option Node) :
        node.any Node.isRoot = (node.map Node.isRoot).any (· == true) := by
      cases node <;> simp
    rw [any, any, flag]
  rw [roots, roots, liveNodes_filter g' fun _ node => node.isRoot,
    liveNodes_filter g fun _ node => node.isRoot, liveIds_congr same, funext own]

theorem reachable_congr : g'.recordEdges.reachable = g.recordEdges.reachable := by
  have outgoing : g'.recordEdges.outgoing = g.recordEdges.outgoing := by
    funext id
    have resolve : g'.recordEdges.resolve id = g.recordEdges.resolve id := same.resolve_eq id
    rw [outgoing, outgoing, resolve, recordEdges_edges_congr same]
  have search (steps : Nat) (s : Search) :
      g'.recordEdges.search steps s = g.recordEdges.search steps s := by
    induction steps generalizing s with
    | zero => rfl
    | succ steps ih =>
      rw [Graph.search, Graph.search]
      cases s.queue with
      | nil => rfl
      | cons id rest =>
        dsimp only
        rw [outgoing, ih]
  have recorded : SameShapes g.recordEdges g'.recordEdges := ⟨same.redirects, same.shapes⟩
  rw [reachable, reachable, search, roots_congr recorded isRoot, recorded.size_eq]

end congruence

theorem marked_quiet (g : Graph) : Quiet g g.marked := by
  have recorded := (recordEdges_quiet g).trans (markDescendants_quiet _ g.recordEdges.reachable)
  rw [marked]
  exact recorded.trans (withRetained_quiet _ _)

theorem prune_retained (g : Graph) : g.prune.2.retained = some g.recordEdges.reachable := by
  rw [prune_eq, restoreNames_retained]
  rfl

theorem prune_reachable (g : Graph) :
    g.prune.2.recordEdges.reachable = g.recordEdges.reachable := by
  apply reachable_congr (prune_quiet g).toSameShapes
  rw [prune_eq, restoreNames_map ⟨fun _ _ => rfl, fun _ => rfl⟩]
  exact markDescendants_map (fun _ => rfl) g.recordEdges _

theorem mem_retainedNodes {g : Graph} {id : NodeId} {node : Node} : (id, node) ∈ g.retainedNodes ↔
    (g.isLive id = true ∧ g.nodes[id]? = some node) ∧ g.isRetained id = true := by
  rw [retainedNodes, List.mem_filter, mem_liveNodes]

def retainedIds (g : Graph) : List NodeId := g.liveIds.filter g.isRetained

theorem map_fst_retainedNodes (g : Graph) : g.retainedNodes.map Prod.fst = g.retainedIds := by
  rw [retainedNodes, liveNodes_filter g fun id _ => g.isRetained id, retainedIds]
  apply List.filter_congr
  intro id live
  have inside := ((g.isLive_iff id).mp ((g.mem_liveIds id).mp live)).1
  rw [Array.getElem?_eq_getElem inside, Option.any_some]

theorem mem_retainedIds {g : Graph} {id : NodeId} :
    id ∈ g.retainedIds ↔ ∃ node, (id, node) ∈ g.retainedNodes := by
  rw [← map_fst_retainedNodes, List.mem_map]
  constructor
  · intro member
    obtain ⟨entry, inside, rfl⟩ := member
    exact ⟨entry.2, inside⟩
  · intro member
    obtain ⟨node, inside⟩ := member
    exact ⟨(id, node), inside, rfl⟩

theorem retainedIds_ascending (g : Graph) : g.retainedIds.Pairwise (· < ·) :=
  (List.pairwise_lt_range.filter _).filter _

theorem retainedIds_congr {g g' : Graph} (same : SameShapes g g')
    (retained : g'.retained = g.retained) : g'.retainedIds = g.retainedIds := by
  have isRetained : g'.isRetained = g.isRetained := by
    funext id
    rw [isRetained, isRetained, retained, same.resolve_eq]
  rw [retainedIds, retainedIds, liveIds_congr same, isRetained]

theorem isRetained_prune {g : Graph} {id : NodeId} (live : g.isLive id = true) :
    g.prune.2.isRetained id = true ↔ id ∈ g.recordEdges.reachable := by
  have here : g.prune.2.resolve id = id :=
    ((prune_quiet g).resolve_eq id).trans (resolve_of_isLive live)
  rw [isRetained, prune_retained]
  dsimp only
  rw [here, List.contains_iff_mem]

theorem prune_refers {g : Graph} (sound : g.Sound) (closed : g.Closed) {id target : NodeId}
    {node : Node} (kept : (id, node) ∈ g.prune.2.retainedNodes)
    (refers : target ∈ node.shape.outgoing) :
    ∃ other, (g.prune.2.resolve target, other) ∈ g.prune.2.retainedNodes := by
  have same := (prune_quiet g).toSameShapes
  obtain ⟨⟨live, found⟩, retained⟩ := mem_retainedNodes.mp kept
  have shape := same.shape?_eq id
  rw [found, Option.map_some] at shape
  obtain ⟨before, there, isShape⟩ := Option.map_eq_some_iff.mp shape.symm
  rw [same.isLive_eq] at live
  have reached : g.resolve target ∈ g.recordEdges.reachable :=
    mem_reachable_of_refers sound closed ((isRetained_prune live).mp retained) there
      (isShape ▸ refers)
  have within := (reachable_closed sound closed reached).1
  have liveTarget : g.prune.2.isLive (g.resolve target) = true := by
    rw [same.isLive_eq]
    exact within
  have inside := ((g.prune.2.isLive_iff _).mp liveTarget).1
  rw [same.resolve_eq]
  exact ⟨_, mem_retainedNodes.mpr
    ⟨⟨liveTarget, Array.getElem?_eq_getElem inside⟩, (isRetained_prune within).mpr reached⟩⟩

end Graph

end TypeLoom
