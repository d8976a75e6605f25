import TypeLoom.Proofs.Permanence
import TypeLoom.Proofs.Retention

/-! What the roots lead to. A node refers to the nodes that its shape names at any place, or to
those that stand for them. A pruning retains exactly the nodes that are needed: the public and
rendered ones, and with a node those that it refers to. The nodes that some retained node refers to
are marked, and the others keep the mark that they had. -/
namespace TypeLoom

/-- The type is a node, or one of its arguments names it. -/
inductive TypeUse.Names : TypeUse → NodeId → Prop
  | target {u : TypeUse} {id : NodeId} (target : u.target = .node id) : u.Names id
  | argument {u argument : TypeUse} {id : NodeId} (listed : argument ∈ u.arguments)
      (names : argument.Names id) : u.Names id

namespace TypeUse

mutual

theorem mem_nodes_iff (id : NodeId) : (u : TypeUse) → (id ∈ u.nodes ↔ u.Names id)
  | ⟨.node own, depth, arguments⟩ => by
    rw [nodes, List.mem_cons, mem_nodesOfAll_iff id arguments]
    constructor
    · rintro (rfl | ⟨argument, listed, names⟩)
      · exact .target rfl
      · exact .argument listed names
    · intro names
      cases names with
      | target target => exact .inl (Target.node.inj target).symm
      | argument listed names => exact .inr ⟨_, listed, names⟩
  | ⟨.generic name, depth, arguments⟩ => by
    rw [nodes, mem_nodesOfAll_iff id arguments]
    constructor
    · rintro ⟨argument, listed, names⟩
      exact .argument listed names
    · intro names
      cases names with
      | target target => cases target
      | argument listed names => exact ⟨_, listed, names⟩

theorem mem_nodesOfAll_iff (id : NodeId) :
    (uses : List TypeUse) → (id ∈ nodesOfAll uses ↔ ∃ u ∈ uses, u.Names id)
  | [] => by simp [nodesOfAll]
  | u :: rest => by
    rw [nodesOfAll, List.mem_append, mem_nodes_iff id u, mem_nodesOfAll_iff id rest]
    simp

end

end TypeUse

namespace Graph

/-- The shape names the node somewhere: in the default of a type parameter, as a base, or in one of
the types that it is made of. -/
inductive Shape.Names : Shape → NodeId → Prop
  | default {s : Shape} {p : Parameter} {u : TypeUse} {id : NodeId} (listed : p ∈ s.generics)
      (default : p.default = some u) (names : u.Names id) : s.Names id
  | property {properties : List Property} {generics : List Parameter} {p : Property} {id : NodeId}
      (listed : p ∈ properties) (names : p.type.Names id) :
      (Shape.record properties generics).Names id
  | element {element : TypeUse} {generics : List Parameter} {id : NodeId}
      (names : element.Names id) : (Shape.array element generics).Names id
  | value {key : IndexKey} {value : TypeUse} {generics : List Parameter} {id : NodeId}
      (names : value.Names id) : (Shape.dictionary key value generics).Names id
  | constant {items : List Constant} {c : Constant} {id : NodeId} (listed : c ∈ items)
      (names : c.type.Names id) : (Shape.constants items).Names id
  | item {elements : List TypeUse} {generics : List Parameter} {u : TypeUse} {id : NodeId}
      (listed : u ∈ elements) (names : u.Names id) : (Shape.tuple elements generics).Names id
  | base {base : NodeId} {arguments : List TypeUse} {generics : List Parameter} :
      (Shape.instantiation base arguments generics).Names base
  | argument {base : NodeId} {arguments : List TypeUse} {generics : List Parameter} {u : TypeUse}
      {id : NodeId} (listed : u ∈ arguments) (names : u.Names id) :
      (Shape.instantiation base arguments generics).Names id
  | unionBase {base : NodeId} {members : List TypeUse} :
      (Shape.classUnionInstance base members).Names base
  | member {base : NodeId} {members : List TypeUse} {u : TypeUse} {id : NodeId}
      (listed : u ∈ members) (names : u.Names id) : (Shape.classUnionInstance base members).Names id

theorem Shape.mem_outgoing_iff {s : Shape} {id : NodeId} : id ∈ s.outgoing ↔ s.Names id := by
  rw [mem_outgoing, typeUses]
  simp only [TypeUse.mem_nodes_iff]
  constructor
  · rintro (base | ⟨u, inside, names⟩)
    · cases s with
      | instantiation => cases base; exact .base
      | classUnionInstance => cases base; exact .unionBase
      | _ => cases base
    · rcases List.mem_append.mp inside with parameter | own
      · obtain ⟨p, listed, default⟩ := List.mem_filterMap.mp parameter
        exact .default listed default names
      · cases s with
        | record properties generics =>
          obtain ⟨p, listed, rfl⟩ := List.mem_map.mp own
          exact .property listed names
        | constants items =>
          obtain ⟨c, listed, rfl⟩ := List.mem_map.mp own
          exact .constant listed names
        | array element generics =>
          rw [List.mem_singleton.mp own] at names
          exact .element names
        | dictionary key value generics =>
          rw [List.mem_singleton.mp own] at names
          exact .value names
        | tuple elements generics => exact .item own names
        | instantiation base arguments generics => exact .argument own names
        | classUnionInstance base members => exact .member own names
        | _ => cases own
  · intro named
    cases named with
    | default listed default names =>
      exact .inr ⟨_, List.mem_append_left _ (List.mem_filterMap.mpr ⟨_, listed, default⟩), names⟩
    | property listed names | constant listed names =>
      exact .inr ⟨_, List.mem_append_right _ (List.mem_map_of_mem listed), names⟩
    | element names | value names =>
      exact .inr ⟨_, List.mem_append_right _ List.mem_cons_self, names⟩
    | item listed names | argument listed names | member listed names =>
      exact .inr ⟨_, List.mem_append_right _ listed, names⟩
    | base | unionBase => exact .inl rfl

/-- A reference from the one node, resolved, is to the other. -/
def Refers (g : Graph) (a b : NodeId) : Prop :=
  ∃ node id, g.nodes[a]? = some node ∧ node.shape.Names id ∧ g.resolve id = b

/-- The output needs the node: it is live and public or to be rendered, or a needed one refers to
it. -/
inductive Needed (g : Graph) : NodeId → Prop
  | root {id : NodeId} {node : Node} (live : g.isLive id = true) (found : g.nodes[id]? = some node)
      (shown : node.flags.isPublic = true ∨ node.flags.rendered = true) : g.Needed id
  | refers {a b : NodeId} (needed : g.Needed a) (refers : g.Refers a b) : g.Needed b

theorem search_reached (g : Graph) (steps : Nat) (s : Search) : s.reached ⊆ g.search steps s := by
  induction steps generalizing s with
  | zero => exact List.Subset.refl _
  | succ steps ih =>
    obtain ⟨reached, queue⟩ := s
    cases queue with
    | nil => exact List.Subset.refl _
    | cons id rest =>
      rw [search]
      obtain ⟨fresh, result, -, member⟩ := foldl_visit (g.outgoing id) ⟨reached, rest⟩
      refine List.Subset.trans (fun other old => ?_) (ih _)
      rw [result]
      exact (member other).mpr (.inl old)

theorem search_nodup (g : Graph) (steps : Nat) {s : Search} (distinct : s.reached.Nodup) :
    (g.search steps s).Nodup := by
  induction steps generalizing s with
  | zero => exact distinct
  | succ steps ih =>
    obtain ⟨reached, queue⟩ := s
    cases queue with
    | nil => exact distinct
    | cons id rest =>
      rw [search]
      obtain ⟨fresh, result, nodup, -⟩ := foldl_visit (g.outgoing id) ⟨reached, rest⟩
      exact ih (by rw [result]; exact nodup distinct)

theorem reachable_nodup (g : Graph) : g.reachable.Nodup :=
  search_nodup g _ (roots_nodup g)

theorem mem_recordEdges_outgoing {g : Graph} {a b : NodeId} (live : g.isLive a = true) :
    b ∈ g.recordEdges.outgoing a ↔ g.Refers a b := by
  rw [recordEdges_outgoing live, Array.getElem?_map]
  cases found : g.nodes[a]? with
  | none => simp [Refers, found]
  | some node =>
    rw [Option.map_some, Option.map_some, Option.getD_some, mem_references]
    simp only [Shape.mem_outgoing_iff, Refers, found, Option.some.injEq]
    constructor
    · rintro ⟨id, names, stands⟩
      exact ⟨node, id, rfl, names, stands⟩
    · rintro ⟨_, id, rfl, names, stands⟩
      exact ⟨id, names, stands⟩

theorem mem_roots_iff {g : Graph} {id : NodeId} : id ∈ g.roots ↔ g.isLive id = true ∧
    ∃ node, g.nodes[id]? = some node ∧
      (node.flags.isPublic = true ∨ node.flags.rendered = true) := by
  rw [mem_roots, Option.any_eq_true]
  simp only [Node.isRoot, Bool.or_eq_true]

section needed
variable {g : Graph} (sound : g.Sound) (present : ∀ id, g.Needed id → id < g.nodes.size)
include sound present

theorem Needed.isLive {id : NodeId} (needed : g.Needed id) : g.isLive id = true := by
  cases id_needed : needed with
  | root live found shown => exact live
  | refers before refers =>
    obtain ⟨node, other, -, -, rfl⟩ := refers
    exact (g.isLive_iff _).mpr ⟨present _ needed, sound.resolve_end other⟩

theorem mem_reachable_iff (id : NodeId) : id ∈ g.recordEdges.reachable ↔ g.Needed id := by
  have start : Search.Sweeps g.recordEdges ⟨g.recordEdges.roots, g.recordEdges.roots⟩ :=
    ⟨roots_nodup _, List.Subset.refl _, fun _ root => .inl root⟩
  have roots : ∀ id ∈ g.recordEdges.roots, g.Needed id := by
    intro id root
    obtain ⟨live, node, found, shown⟩ := mem_roots_iff.mp root
    exact .root live found shown
  have leads : ∀ id, g.Needed id → ∀ target ∈ g.recordEdges.outgoing id, g.Needed target :=
    fun id needed target refers =>
      .refers needed ((mem_recordEdges_outgoing (needed.isLive sound present)).mp refers)
  have closed : ∀ id ∈ g.recordEdges.reachable, g.Needed id ∧
      g.recordEdges.outgoing id ⊆ g.recordEdges.reachable :=
    search_closed (g := g.recordEdges) present leads start roots (Nat.add_assoc _ _ _).symm
  refine ⟨fun reached => (closed id reached).1, fun needed => ?_⟩
  induction needed with
  | root live found shown =>
    exact search_reached _ _ _ (mem_roots_iff.mpr ⟨live, _, found, shown⟩)
  | refers needed refers ih =>
    exact (closed _ ih).2 ((mem_recordEdges_outgoing (needed.isLive sound present)).mpr refers)

theorem length_reachable_le : g.recordEdges.reachable.length ≤ g.liveCount := by
  rw [sound.liveCount_eq]
  refine (reachable_nodup _).length_le_of_subset fun id reached => ?_
  rw [mem_liveIds]
  exact ((mem_reachable_iff sound present id).mp reached).isLive sound present

end needed

/-- The node is marked as one that some retained node refers to. -/
def isDescendant (g : Graph) (id : NodeId) : Bool :=
  (g.nodes[id]?).any fun node => node.flags.descendant

theorem isDescendant_congr {g g' : Graph}
    (same : g'.nodes.map (fun node => node.flags.descendant) =
      g.nodes.map fun node => node.flags.descendant) (id : NodeId) :
    g'.isDescendant id = g.isDescendant id := by
  have mark (g : Graph) : g.isDescendant id =
      ((g.nodes.map fun node => node.flags.descendant)[id]?).any fun flag => flag := by
    rw [isDescendant, Array.getElem?_map, Option.any_map]
  rw [mark, mark, same]

theorem isDescendant_markDescendants (g : Graph) (retained : List NodeId) (id : NodeId) :
    (g.markDescendants retained).isDescendant id = true ↔
      g.isDescendant id = true ∨ id < g.nodes.size ∧ ∃ a ∈ retained, id ∈ g.outgoing a := by
  rw [markDescendants, ← List.mem_flatMap]
  generalize retained.flatMap g.outgoing = ids
  induction ids generalizing g with
  | nil => simp
  | cons first rest ih =>
    rw [List.foldl_cons, ih]
    simp only [isDescendant, modifyNode, Array.getElem?_modify, Array.size_modify, List.mem_cons]
    by_cases same : first = id
    · subst same
      by_cases inside : first < g.nodes.size
      · simp [inside]
      · simp [inside]
    · simp [same, Ne.symm same]

/-- What a pruning of `g` has to bring about: the nodes that are needed are retained and the others
are counted, and those that a retained node refers to are marked besides those that were. -/
structure Prunes (g : Graph) (ids : List NodeId) : Prop where
  retained : g.prune.2.retained = some ids
  distinct : ids.Nodup
  needed : ∀ id, id ∈ ids ↔ g.isLive id = true ∧ g.Needed id
  descendants : ∀ id, g.prune.2.isDescendant id = true ↔
    g.isDescendant id = true ∨ ∃ a ∈ ids, g.Refers a id
  count : g.prune.1 + ids.length = g.liveCount

theorem prune_count (g : Graph) : g.prune.1 = g.liveCount - g.recordEdges.reachable.length := by
  have same := (recordEdges_same g).trans
    (markDescendants_quiet g.recordEdges g.recordEdges.reachable).toSameShapes
  rw [prune]
  dsimp only
  rw [same.liveCount_eq]

theorem prune_isDescendant (g : Graph) (id : NodeId) : g.prune.2.isDescendant id =
    (g.recordEdges.markDescendants g.recordEdges.reachable).isDescendant id := by
  apply isDescendant_congr
  rw [prune_eq, restoreNames_map ⟨fun _ _ => rfl, fun _ => rfl⟩]
  rfl

theorem prunes_of_present {g : Graph} (sound : g.Sound)
    (present : ∀ id, g.Needed id → id < g.nodes.size) : Prunes g g.recordEdges.reachable where
  retained := prune_retained g
  distinct := reachable_nodup _
  needed id := by
    rw [mem_reachable_iff sound present]
    exact ⟨fun needed => ⟨needed.isLive sound present, needed⟩, fun both => both.2⟩
  descendants id := by
    rw [prune_isDescendant, isDescendant_markDescendants]
    refine or_congr_right ⟨?_, ?_⟩
    · rintro ⟨-, a, reached, refers⟩
      have live := ((mem_reachable_iff sound present a).mp reached).isLive sound present
      exact ⟨a, reached, (mem_recordEdges_outgoing live).mp refers⟩
    · rintro ⟨a, reached, refers⟩
      have needed := (mem_reachable_iff sound present a).mp reached
      exact ⟨present id (.refers needed refers), a, reached,
        (mem_recordEdges_outgoing (needed.isLive sound present)).mpr refers⟩
  count := by
    rw [prune_count]
    exact Nat.sub_add_cancel (length_reachable_le sound present)

theorem Needed.lt_of_closed {g : Graph} (sound : g.Sound) (closed : g.Closed) {id : NodeId}
    (needed : g.Needed id) : id < g.nodes.size := by
  cases needed with
  | root live found shown => exact ((g.isLive_iff id).mp live).1
  | refers needed refers =>
    obtain ⟨node, other, found, names, rfl⟩ := refers
    exact sound.resolve_lt (closed found other (Shape.mem_outgoing_iff.mpr names))

open Operation

/-- Whatever was done before, a pruning retains what is needed, marks what is referred to and counts
the rest, provided that no needed node is missing. -/
theorem prune_prunes (hash : Hash) (ops : List Operation)
    (present : ∀ id, (runAll hash .empty ops).Needed id →
      id < (runAll hash .empty ops).nodes.size) :
    ∃ ids, Prunes (runAll hash .empty ops) ids :=
  ⟨_, prunes_of_present (runAll_sound hash ops empty_sound (.of_empty rfl)).1 present⟩

/-- A public record refers to one that has been replaced and through it to itself; another record
refers to them and nothing refers to it. -/
def Operation.threads : List Operation :=
  [.register (Node.asPublic { name := "Thread", origin := some "a", shape := .record [] [] }),
    .register { name := "Post", origin := some "b", shape := .record [] [] },
    .register { name := "Draft", shape := .record [.link "thread" 0] [] },
    .addProperty 0 (.link "posts" 1),
    .replace "Post#b"
      { name := "Post", origin := some "c", shape := .record [.link "thread" 0] [] }]

theorem prune_prunes_threads : Within Sha256.hex .empty threads ∧
    ∃ ids, Prunes (runAll Sha256.hex .empty threads) ids := by
  have within : Within Sha256.hex .empty threads := by decide
  have closed := runAll_closed Sha256.hex threads empty_sound empty_closed within
  exact ⟨within, prune_prunes Sha256.hex threads fun id needed =>
    needed.lt_of_closed (runAll_sound Sha256.hex threads empty_sound (.of_empty rfl)).1 closed⟩

end Graph

end TypeLoom
