import TypeLoom.Proofs.DeclaredNames
import TypeLoom.Proofs.NameRestoration
import TypeLoom.Proofs.Writing

/-! A file is closed under references. Everything that a declaration refers to is retained, and what
is retained is declared or written in place, so wherever a declared node is used, its declaration is
in the file; there is no node left to be written as `object` for want of a name. -/
namespace TypeLoom

namespace Graph

/-- A node of constants has some. -/
def Filled (g : Graph) : Prop :=
  ∀ (id : NodeId) (node : Node), g.nodes[id]? = some node → node.shape ≠ .constants []

theorem filled_durable : Durable fun node => node.shape ≠ .constants [] where
  primitive _ := Shape.noConfusion
  constants constant := by simp [constantsOf, Node.asPublic]
  placed placed empty := by
    have named := placed.named
    rw [empty] at named
    cases named
  reshape {_ f node} reshapes filled empty := by
    have label := reshapes.label node.shape
    dsimp only at empty
    rw [empty] at label
    cases shape : node.shape with
    | constants items =>
      rw [shape] at empty
      exact filled (by rw [shape, reshapes.filled items empty])
    | _ => simp [shape, Shape.label] at label

theorem Steps.filled {g : Graph} (steps : Steps empty g) : g.Filled :=
  fun _ node there => filled_durable.steps steps node (Array.mem_of_getElem? there)

theorem void_lasting : Lasting fun node : Node => node.shape = .constants [] where
  flags _ _ := rfl
  references node f := by
    dsimp only
    cases node.shape <;> simp [Shape.mapNodes]

theorem consolidate_filled (hash : Hash) {g : Graph} (filled : g.Filled) :
    (g.consolidate hash).2.Filled := by
  intro id node found empty
  have same := congrArg (·[id]?) (consolidate_map void_lasting hash g)
  simp only [Array.getElem?_map, found, Option.map_some] at same
  obtain ⟨before, there, isEmpty⟩ := Option.map_eq_some_iff.mp same.symm
  exact filled id before there (isEmpty.mpr empty)

/-- Retained nodes refer to retained nodes, and there are constants where there is a node for
them. -/
structure Complete (g : Graph) : Prop where
  refers : ∀ (id : NodeId) (node : Node), (id, node) ∈ g.retainedNodes →
    ∀ target ∈ node.shape.outgoing, ∃ other, (g.resolve target, other) ∈ g.retainedNodes
  filled : ∀ (id : NodeId) (node : Node), (id, node) ∈ g.retainedNodes → node.shape ≠ .constants []

theorem prune_complete {g : Graph} (sound : g.Sound) (closed : g.Closed) (filled : g.Filled) :
    g.prune.2.Complete where
  refers _ _ kept _ := prune_refers sound closed kept
  filled id node kept empty := by
    have shape := (prune_quiet g).shape?_eq id
    rw [(mem_retainedNodes.mp kept).1.2, Option.map_some, empty] at shape
    obtain ⟨before, there, isEmpty⟩ := Option.map_eq_some_iff.mp shape.symm
    exact filled id before there isEmpty

end Graph

theorem Conversion.buildWith_complete {hash : Graph.Hash} {settings : Settings} {facts : List Fact}
    {g : Graph} (built : buildWith hash settings facts = .ok g) : g.Complete := by
  have steps := Graph.ingest_steps settings facts
  have intact := Graph.Steps.intact steps Graph.empty_intact
  have keeps := Graph.consolidate_keeps hash (Graph.empty.ingest settings facts).2
  have closed := keeps.closed intact.sound (by simp) intact.closed
  have filled := Graph.consolidate_filled hash (Graph.Steps.filled steps)
  rw [buildWith_eq_ok built]
  exact Graph.prune_complete (keeps.sound intact.sound) closed filled

namespace Code
open TypeLoom.Graph (Node Shape)

/-- The uses in a node; a base is used with the arguments of the node. -/
def writtenUses (shape : Shape) : List TypeUse :=
  shape.typeUses ++ (shape.base?.map fun base => ⟨.node base, 0, shape.ownUses⟩).toList

/-- The uses that come to be written with the declarations: those of a declared node, the arguments
of a use, and, since a node may be written in place and arguments may be defaults, those of the node
that a use is of. -/
inductive Written (g : Graph) : TypeUse → Prop
  | own {id : NodeId} {node : Node} {u : TypeUse} (declared : (id, node) ∈ declaredNodes g)
      (inside : u ∈ writtenUses node.shape) : Written g u
  | argument {u v : TypeUse} (outer : Written g u) (inside : v ∈ u.arguments) : Written g v
  | target {u v : TypeUse} {id : NodeId} {node : Node} (outer : Written g u)
      (target : u.target = .node id) (found : g.node? id = some node)
      (inside : v ∈ writtenUses node.shape) : Written g v

/-- The node that stands for `id` is retained. -/
def Kept (g : Graph) (id : NodeId) : Prop := ∃ node, (g.resolve id, node) ∈ g.retainedNodes

theorem mem_outgoing_of_writtenUses {shape : Shape} {u : TypeUse} (inside : u ∈ writtenUses shape)
    {id : NodeId} (member : id ∈ u.nodes) : id ∈ shape.outgoing := by
  rw [Shape.mem_outgoing]
  rcases List.mem_append.mp inside with use | base
  · exact .inr ⟨u, use, member⟩
  · obtain ⟨root, isBase, rfl⟩ := Option.map_eq_some_iff.mp (Option.mem_toList.mp base)
    rw [TypeUse.nodes, TypeUse.nodesOfAll_eq] at member
    rcases List.mem_cons.mp member with rfl | argument
    · exact .inl isBase
    · obtain ⟨v, own, within⟩ := List.mem_flatMap.mp argument
      exact .inr ⟨v, List.mem_append_right _ own, within⟩

theorem nodes_subset_of_argument {u v : TypeUse} (inside : v ∈ u.arguments) :
    v.nodes ⊆ u.nodes := by
  obtain ⟨target, depth, arguments⟩ := u
  have within : v.nodes ⊆ TypeUse.nodesOfAll arguments := by
    intro id member
    rw [TypeUse.nodesOfAll_eq]
    exact List.mem_flatMap.mpr ⟨v, inside, member⟩
  cases target with
  | node id => exact List.Subset.trans within (List.subset_cons_self _ _)
  | generic name => exact within

section kept
variable {g : Graph} (complete : g.Complete)
include complete

theorem kept_of_writtenUses {id : NodeId} {node : Node} (kept : (id, node) ∈ g.retainedNodes)
    {u : TypeUse} (inside : u ∈ writtenUses node.shape) : ∀ id ∈ u.nodes, Kept g id :=
  fun target member =>
    complete.refers id node kept target (mem_outgoing_of_writtenUses inside member)

theorem Written.kept {u : TypeUse} (written : Written g u) : ∀ id ∈ u.nodes, Kept g id := by
  induction written with
  | own declared inside =>
    exact kept_of_writtenUses complete (mem_declaredNodes.mp declared).1 inside
  | argument outer inside ih =>
    exact fun id member => ih id (nodes_subset_of_argument inside member)
  | target outer target found inside ih =>
    obtain ⟨node, kept⟩ := ih _ (TypeUse.mem_nodes_of_target target)
    rw [Graph.node?, (Graph.mem_retainedNodes.mp kept).1.2, Option.some_inj] at found
    exact kept_of_writtenUses complete (found ▸ kept) inside

end kept

theorem argumentsFor_length (default : TypeUse → TypeRef) (generics : List Graph.Parameter)
    (given : List TypeRef) : (argumentsFor default generics given).length = generics.length := by
  induction generics generalizing given with
  | nil => rfl
  | cons parameter rest ih => cases given <;> simp [argumentsFor, ih]

def declaredArguments (default : TypeUse → TypeRef) (shape : Shape) (given : List TypeRef) :
    List TypeRef :=
  match shape with
  | .classUnion arity => (List.range arity).map fun i => (given[i]?).getD .object
  | shape => argumentsFor default shape.generics given

theorem declaredArguments_length (default : TypeUse → TypeRef) (shape : Shape)
    (given : List TypeRef) : (declaredArguments default shape given).length = arity shape := by
  cases shape <;> simp [declaredArguments, arity, argumentsFor_length]

theorem nodeTypeWith_declared {n : Naming} {id : NodeId} {node : Node}
    (found : n.graph.node? id = some node) (declared : node.isDeclared = true) {name : String}
    (named : n.names.get? (n.graph.resolve id) = some name)
    (inside : NodeId → (NodeWriter → TypeRef) → TypeRef) (bound : Bindings) (given : List TypeRef) :
    nodeTypeWith n inside bound id given = .named name (declaredArguments
      (fun u => inside (n.graph.resolve id) fun writer => writer.use bound u)
      node.shape given) := by
  rw [Graph.node?] at found
  rw [nodeTypeWith]
  simp only [found, named]
  rw [Graph.Node.isDeclared] at declared
  cases shape : node.shape <;> rw [shape] at declared <;>
    cases anonymous : node.flags.anonymous <;>
    simp [anonymous, Shape.declarationKind?] at declared <;> rfl

theorem nodeType_declared {n : Naming} {id : NodeId} {node : Node}
    (found : n.graph.node? id = some node) (declared : node.isDeclared = true) {name : String}
    (named : n.names.get? (n.graph.resolve id) = some name) (level : Nat) (stack : List NodeId)
    (bound : Bindings) (given : List TypeRef) :
    ∃ arguments, nodeType n level stack bound id given = .named name arguments ∧
      arguments.length = arity node.shape := by
  cases level with
  | zero =>
    exact ⟨_, nodeTypeWith_declared found declared named _ bound given,
      declaredArguments_length _ _ _⟩
  | succ level =>
    exact ⟨_, nodeTypeWith_declared found declared named _ bound given,
      declaredArguments_length _ _ _⟩

section names
variable {g : Graph} (complete : g.Complete) {settings : Settings} {names : Table NodeId String}
  (wider : ∀ id name, (Naming.of g settings).names.get? id = some name → names.get? id = some name)
include complete wider

/-- Retained nodes refer to retained ones, and have their names if they are declared. -/
theorem writer_agree : Agree (Kept g) (fun _ => True) (⟨g, names⟩ : Naming).writer
    (Naming.of g settings).writer := by
  refine nodeType_agree (fun id node kept found => ?_) (fun id node kept found either => ?_) _ []
  all_goals
    obtain ⟨other, retained⟩ := kept
    rw [Graph.node?, (Graph.mem_retainedNodes.mp retained).1.2, Option.some_inj] at found
    subst found
  · exact ⟨complete.refers _ other retained, fun _ _ _ _ => trivial⟩
  · have declared := either.resolve_right (complete.filled _ other retained)
    obtain ⟨name, named⟩ := Naming.exists_name settings (mem_declaredNodes.mpr ⟨retained, declared⟩)
    exact (wider _ name named).trans named.symm

/-- A declaration is written alike with names for more nodes, so no node lacks one. -/
theorem lowerDeclaration_eq (name : String) {id : NodeId} {node : Node}
    (retained : (id, node) ∈ g.retainedNodes) :
    lowerDeclaration ⟨g, names⟩ settings name node =
      lowerDeclaration (Naming.of g settings) settings name node := by
  have uses : ∀ u ∈ node.shape.ownUses, UsesOnly (Kept g) (fun _ => True) u := fun u member =>
    ⟨kept_of_writtenUses complete retained
      (List.mem_append_left _ (List.mem_append_right _ member)), fun _ _ => trivial⟩
  have base : ∀ root, node.shape.base? = some root → Kept g root := fun root isBase =>
    complete.refers id node retained root ((Shape.mem_outgoing _ _).mpr (.inl isBase))
  have agree := writer_agree complete wider
  have none : Bindings.Agree (fun _ => True) [] [] := .refl _ _
  have use {u : TypeUse} (member : u ∈ node.shape.ownUses) :
      (⟨g, names⟩ : Naming).use u = (Naming.of g settings).use u := agree.use none (uses u member)
  rw [lowerDeclaration, lowerDeclaration]
  cases shape : node.shape with
  | record properties generics =>
    rw [shape] at use
    have same : ∀ entry ∈ (uniqueNames [] (properties.map fun p =>
        memberName settings name p.name)).zip properties,
        lowerProperty ⟨g, names⟩ settings entry.1 entry.2 =
          lowerProperty (Naming.of g settings) settings entry.1 entry.2 := by
      intro entry member
      rw [lowerProperty, lowerProperty,
        use (List.mem_map_of_mem (List.of_mem_zip member).2)]
    dsimp only
    rw [lowerRecord, lowerRecord, List.map_congr_left same]
  | constants items =>
    rw [shape] at use
    have same : ∀ entry ∈ (uniqueNames [] (items.map fun c =>
        memberName settings name c.name)).zip items,
        lowerConstant ⟨g, names⟩ entry.1 entry.2 =
          lowerConstant (Naming.of g settings) entry.1 entry.2 := by
      intro entry member
      rw [lowerConstant, lowerConstant, use (List.mem_map_of_mem (List.of_mem_zip member).2)]
    dsimp only
    rw [lowerConstants, lowerConstants, List.map_congr_left same]
  | dictionary key value generics =>
    rw [shape] at use
    dsimp only
    rw [use (List.mem_singleton_self value)]
  | instantiation root own generics =>
    rw [shape] at uses base
    dsimp only
    rw [agree.uses none own uses, agree none root (base root rfl)]
  | tuple elements generics =>
    rw [shape] at uses
    dsimp only
    rw [agree.uses none elements uses]
  | _ => rfl

end names

/-- A use of a declared node is written as the name of the node's declaration, the only one of this
name in the file, with an argument for each of its type parameters. This holds wherever the use is
written and whatever is bound there. -/
def NamesDeclaration (g : Graph) (settings : Settings) (u : TypeUse) (node : Node) : Prop :=
  ∃ decl ∈ (lowerFile g settings).declarations,
    lowerDeclaration (Naming.of g settings) settings decl.name node = some decl ∧
    (∀ other ∈ (lowerFile g settings).declarations, other.name = decl.name → other = decl) ∧
    ∀ level stack bound, ∃ arguments,
      typeUse (nodeType (Naming.of g settings) level stack bound) bound u =
        (TypeRef.named decl.name arguments).arrays u.arrayDepth ∧ arguments.length = decl.arity

theorem Written.namesDeclaration {g : Graph} (complete : g.Complete) (settings : Settings)
    {u : TypeUse} (written : Written g u) {id : NodeId} (target : u.target = .node id) {node : Node}
    (found : g.node? id = some node) (declared : node.isDeclared = true) :
    NamesDeclaration g settings u node := by
  obtain ⟨own, kept⟩ := written.kept complete id (TypeUse.mem_nodes_of_target target)
  have same := found
  rw [Graph.node?, (Graph.mem_retainedNodes.mp kept).1.2, Option.some_inj] at same
  subst same
  have listed := mem_declaredNodes.mpr ⟨kept, declared⟩
  obtain ⟨name, named⟩ := Naming.exists_name settings listed
  obtain ⟨decl, inside, lowered, rfl, isArity, unique⟩ := lowerFile_declaration listed named
  refine ⟨decl, inside, lowered, unique, fun level stack bound => ?_⟩
  obtain ⟨_, depth, given⟩ := u
  cases target
  obtain ⟨arguments, isNamed, length⟩ :=
    nodeType_declared (n := Naming.of g settings) found declared named level stack bound
      (typeUses (nodeType (Naming.of g settings) level stack bound) bound given)
  refine ⟨arguments, ?_, length.trans isArity.symm⟩
  rw [typeUse, isNamed]

end Code

end TypeLoom
