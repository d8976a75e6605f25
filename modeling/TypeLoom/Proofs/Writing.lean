import TypeLoom.Code.Lower
import TypeLoom.Proofs.References

/-! What the writing of types depends on: of the graph the nodes that are referred to, of the
bindings the values of parameters that are mentioned, and of the names those of nodes that have a
declaration. -/
namespace TypeLoom.Code
open TypeLoom.Graph (Node Shape)

def Bindings.value (bound : Bindings) (name : String) : TypeRef :=
  (bound.lookup name).getD (.plain (identifier name))

theorem Bindings.value_cons (entry : String × TypeRef) (rest : Bindings) (name : String) :
    Bindings.value (entry :: rest) name =
      if name = entry.1 then entry.2 else Bindings.value rest name := by
  obtain ⟨own, type⟩ := entry
  rw [value, List.lookup_cons]
  by_cases same : name = own
  · rw [if_pos same, beq_iff_eq.mpr same]
    rfl
  · rw [if_neg same, beq_false_of_ne same]
    rfl

/-- Bindings under which certain parameters are written alike. -/
def Bindings.Agree (shown : String → Prop) (bound bound' : Bindings) : Prop :=
  ∀ name, shown name → bound.value name = bound'.value name

theorem Bindings.Agree.refl (shown : String → Prop) (bound : Bindings) :
    bound.Agree shown bound := fun _ _ => rfl

theorem typeUses_eq_map (nodeType : NodeId → List TypeRef → TypeRef) (bound : Bindings)
    (uses : List TypeUse) : typeUses nodeType bound uses = uses.map (typeUse nodeType bound) := by
  induction uses with
  | nil => rw [typeUses, List.map_nil]
  | cons u rest ih => rw [typeUses, ih, List.map_cons]

mutual

theorem typeUse_congr {w w' : NodeId → List TypeRef → TypeRef} {bound bound' : Bindings} :
    (u : TypeUse) → (∀ id ∈ u.nodes, w id = w' id) →
      bound.Agree (u.mentions · = true) bound' → typeUse w bound u = typeUse w' bound' u
  | ⟨.generic name, depth, arguments⟩, _, alike => by
    have value := alike name (by simp [TypeUse.mentions])
    rw [Bindings.value, Bindings.value] at value
    rw [typeUse, typeUse, value]
  | ⟨.node id, depth, arguments⟩, same, alike => by
    rw [TypeUse.nodes, List.forall_mem_cons] at same
    rw [typeUse, typeUse, same.1, typeUses_congr arguments same.2 alike]

theorem typeUses_congr {w w' : NodeId → List TypeRef → TypeRef} {bound bound' : Bindings} :
    (uses : List TypeUse) → (∀ id ∈ TypeUse.nodesOfAll uses, w id = w' id) →
      bound.Agree (TypeUse.anyMentions · uses = true) bound' →
      typeUses w bound uses = typeUses w' bound' uses
  | [], _, _ => rfl
  | u :: rest, same, alike => by
    rw [TypeUse.nodesOfAll, List.forall_mem_append] at same
    rw [typeUses, typeUses,
      typeUse_congr u same.1 fun name mentions =>
        alike name (by simp [TypeUse.anyMentions, mentions]),
      typeUses_congr rest same.2 fun name mentions =>
        alike name (by simp [TypeUse.anyMentions, mentions])]

end

theorem argumentsFor_congr {default default' : TypeUse → TypeRef} (generics : List Graph.Parameter)
    (same : ∀ u ∈ generics.filterMap Graph.Parameter.default, default u = default' u)
    (given : List TypeRef) :
    argumentsFor default generics given = argumentsFor default' generics given := by
  induction generics generalizing given with
  | nil => rfl
  | cons parameter rest ih =>
    have later : ∀ u ∈ rest.filterMap Graph.Parameter.default, default u = default' u := by
      intro u member
      obtain ⟨p, inside, isDefault⟩ := List.mem_filterMap.mp member
      exact same u (List.mem_filterMap.mpr ⟨p, List.mem_cons_of_mem _ inside, isDefault⟩)
    cases given with
    | cons argument given => rw [argumentsFor, argumentsFor, ih later]
    | nil =>
      rw [argumentsFor, argumentsFor, ih later]
      cases known : parameter.default with
      | none => rfl
      | some u =>
        have own := same u (List.mem_filterMap.mpr ⟨parameter, List.mem_cons_self, known⟩)
        rw [Option.map_some, Option.map_some, own]

/-- A use of certain nodes and parameters only. -/
structure UsesOnly (among : NodeId → Prop) (shown : String → Prop) (u : TypeUse) : Prop where
  nodes : ∀ id ∈ u.nodes, among id
  parameters : ∀ name, u.mentions name = true → shown name

/-- A shape with uses of certain nodes and parameters only. -/
structure HoldsOnly (among : NodeId → Prop) (shown : String → Prop) (shape : Shape) : Prop where
  nodes : ∀ id ∈ shape.outgoing, among id
  parameters : ∀ u ∈ shape.typeUses, ∀ name, u.mentions name = true → shown name

theorem HoldsOnly.uses {among : NodeId → Prop} {shown : String → Prop} {shape : Shape}
    (only : HoldsOnly among shown shape) {u : TypeUse} (member : u ∈ shape.typeUses) :
    UsesOnly among shown u where
  nodes id within := only.nodes id ((Shape.mem_outgoing _ _).mpr (.inr ⟨u, member, within⟩))
  parameters := only.parameters u member

theorem HoldsOnly.all (shape : Shape) : HoldsOnly (fun _ => True) (fun _ => True) shape :=
  ⟨fun _ _ => trivial, fun _ _ _ _ => trivial⟩

/-- Writers that write certain nodes alike if certain parameters are written alike. -/
def Agree (among : NodeId → Prop) (shown : String → Prop) (w w' : NodeWriter) : Prop :=
  ∀ ⦃bound bound' : Bindings⦄, bound.Agree shown bound' → ∀ id, among id → w bound id = w' bound' id

namespace Agree
variable {among : NodeId → Prop} {shown : String → Prop} {w w' : NodeWriter}
  (agree : Agree among shown w w') {bound bound' : Bindings} (alike : bound.Agree shown bound')
include agree alike

theorem use {u : TypeUse} (only : UsesOnly among shown u) : w.use bound u = w'.use bound' u :=
  typeUse_congr u (fun id member => agree alike id (only.nodes id member))
    fun name mentions => alike name (only.parameters name mentions)

theorem uses (uses : List TypeUse) (only : ∀ u ∈ uses, UsesOnly among shown u) :
    w.uses bound uses = w'.uses bound' uses := by
  rw [NodeWriter.uses, NodeWriter.uses, typeUses_eq_map, typeUses_eq_map]
  exact List.map_congr_left fun u member => agree.use alike (only u member)

end Agree

theorem nodeTypeWith_of_none {n : Naming} {id : NodeId} (missing : n.graph.node? id = none)
    (inside : NodeId → (NodeWriter → TypeRef) → TypeRef) (bound : Bindings) (given : List TypeRef) :
    nodeTypeWith n inside bound id given = .object := by
  rw [Graph.node?] at missing
  rw [nodeTypeWith]
  simp only [missing]

theorem nodeTypeWith_congr {g : Graph} {names names' : Table NodeId String} {id : NodeId}
    {node : Node} (found : g.node? id = some node) {among : NodeId → Prop} {shown : String → Prop}
    (only : HoldsOnly among shown node.shape)
    (named : node.isDeclared = true ∨ node.shape = .constants [] →
      names.get? (g.resolve id) = names'.get? (g.resolve id))
    {inside inside' : NodeId → (NodeWriter → TypeRef) → TypeRef}
    (same : ∀ body body' : NodeWriter → TypeRef,
      (∀ w w', Agree among shown w w' → body w = body' w') →
      inside (g.resolve id) body = inside' (g.resolve id) body')
    {bound bound' : Bindings} (alike : bound.Agree shown bound') :
    nodeTypeWith ⟨g, names⟩ inside bound id = nodeTypeWith ⟨g, names'⟩ inside' bound' id := by
  have own : ∀ u ∈ node.shape.ownUses, UsesOnly among shown u :=
    fun u member => only.uses (List.mem_append_right _ member)
  have base : ∀ root, node.shape.base? = some root → among root := fun root isBase =>
    only.nodes root ((Shape.mem_outgoing _ _).mpr (.inl isBase))
  have default : ∀ u ∈ node.shape.generics.filterMap Graph.Parameter.default,
      (inside (g.resolve id) fun writer => writer.use bound u) =
        inside' (g.resolve id) fun writer => writer.use bound' u := fun u member =>
    same _ _ fun w w' agree => agree.use alike (only.uses (List.mem_append_left _ member))
  funext given
  have arguments := argumentsFor_congr node.shape.generics default given
  rw [Graph.node?] at found
  rw [nodeTypeWith, nodeTypeWith]
  dsimp only
  rw [found]
  dsimp only
  rw [Graph.Node.isDeclared] at named
  cases shape : node.shape with
  | record _ _ | stringUnion _ =>
    rw [shape] at named arguments
    dsimp only
    rw [named (.inl rfl), arguments]
  | classUnion arity =>
    rw [shape] at named
    dsimp only
    rw [named (.inl rfl)]
  | constants items =>
    rw [shape] at named arguments
    have either : (!items.isEmpty) = true ∨ Shape.constants items = .constants [] := by
      cases items <;> simp
    dsimp only
    rw [named either, arguments]
  | primitive kind => rfl
  | array element generics =>
    rw [shape] at own arguments
    rw [Shape.generics] at arguments
    dsimp only
    rw [arguments]
    refine same _ _ fun w w' agree => ?_
    rw [agree.use (.refl _ _) (own element (List.mem_singleton_self element))]
  | classUnionInstance root members =>
    rw [shape] at base own
    refine same _ _ fun w w' agree => ?_
    rw [agree.uses alike members own, agree alike root (base root rfl)]
  | dictionary key value generics =>
    rw [shape] at own named arguments
    cases anonymous : node.flags.anonymous with
    | true =>
      refine same _ _ fun w w' agree => ?_
      rw [agree.use alike (own value (List.mem_singleton_self value))]
    | false =>
      dsimp only
      rw [named (.inl (by simp [anonymous])), arguments]
  | tuple elements generics =>
    rw [shape] at own named arguments
    cases anonymous : node.flags.anonymous with
    | true =>
      refine same _ _ fun w w' agree => ?_
      rw [agree.uses alike elements own]
    | false =>
      dsimp only
      rw [named (.inl (by simp [anonymous])), arguments]
  | instantiation root given generics =>
    rw [shape] at base own named arguments
    cases anonymous : node.flags.anonymous with
    | true =>
      refine same _ _ fun w w' agree => ?_
      rw [agree.uses alike given own, agree alike root (base root rfl)]
    | false =>
      dsimp only
      rw [named (.inl (by simp [anonymous])), arguments]

theorem nodeType_agree {g : Graph} {names names' : Table NodeId String} {among : NodeId → Prop}
    {shown : String → Prop}
    (closed : ∀ id node, among id → g.node? id = some node → HoldsOnly among shown node.shape)
    (named : ∀ id node, among id → g.node? id = some node →
      node.isDeclared = true ∨ node.shape = .constants [] →
      names.get? (g.resolve id) = names'.get? (g.resolve id)) (level : Nat) (stack : List NodeId) :
    Agree among shown (nodeType ⟨g, names⟩ level stack) (nodeType ⟨g, names'⟩ level stack) := by
  have congr {inside inside' : NodeId → (NodeWriter → TypeRef) → TypeRef}
      (same : ∀ id (body body' : NodeWriter → TypeRef),
        (∀ w w', Agree among shown w w' → body w = body' w') → inside id body = inside' id body') :
      Agree among shown (nodeTypeWith ⟨g, names⟩ inside) (nodeTypeWith ⟨g, names'⟩ inside') := by
    intro bound bound' alike id member
    cases found : g.node? id with
    | none =>
      funext given
      rw [nodeTypeWith_of_none found, nodeTypeWith_of_none found]
    | some node =>
      exact nodeTypeWith_congr found (closed id node member found) (named id node member found)
        (same _) alike
  induction level generalizing stack with
  | zero =>
    rw [nodeType, nodeType]
    exact congr fun _ _ _ _ => rfl
  | succ level ih =>
    rw [nodeType, nodeType]
    refine congr fun id body body' same => ?_
    split_ifs
    · rfl
    · exact same _ _ (ih (id :: stack))

end TypeLoom.Code
