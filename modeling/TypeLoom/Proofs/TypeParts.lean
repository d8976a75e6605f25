import TypeLoom.Proofs.FileClosure

/-! Properties that a type has if its parts do. A type is written from keywords, type parameters and
names of declarations, so a property that these have, and that passes from parts to a whole, is one
of every type that is written. Only the uses that come to be written count. -/
namespace TypeLoom.Code
open TypeLoom.Graph (Node Shape)

/-- A property that passes from the parts of a type to the type, wherever these uses are written. -/
structure Compositional (n : Naming) (among : TypeUse → Prop) (holds : TypeRef → Prop) : Prop where
  argument : ∀ {u v : TypeUse}, among u → v ∈ u.arguments → among v
  inside : ∀ {u v : TypeUse} {id : NodeId} {node : Node}, among u → u.target = .node id →
    n.graph.node? id = some node → v ∈ writtenUses node.shape → among v
  parameter : ∀ {u : TypeUse} {name : String}, among u → u.target = .generic name →
    holds (.plain (identifier name))
  keyword : ∀ kind, holds (primitiveType kind)
  array : ∀ {type : TypeRef}, holds type → holds (.array type)
  dictionary : ∀ key {type : TypeRef}, holds type →
    holds (.named "Dictionary" [keyType key, type])
  tuple : ∀ {types : List TypeRef}, (∀ type ∈ types, holds type) → holds (.named "Tuple" types)
  declared : ∀ {u : TypeUse} {id : NodeId} {node : Node} {name : String} {types : List TypeRef},
    among u → u.target = .node id → n.graph.node? id = some node →
    n.names.get? (n.graph.resolve id) = some name → types.length = arity node.shape →
    (∀ type ∈ types, holds type) → holds (.named name types)

section parts
variable {n : Naming} {among : TypeUse → Prop} {holds : TypeRef → Prop}
  (parts : Compositional n among holds)
include parts

theorem Compositional.object : holds .object := parts.keyword .object

theorem Compositional.arrays {type : TypeRef} (known : holds type) (depth : Nat) :
    holds (type.arrays depth) := by
  induction depth with
  | zero => exact known
  | succ depth ih => exact parts.array ih

theorem Compositional.value {bound : Bindings} (known : ∀ entry ∈ bound, holds entry.2)
    {u : TypeUse} (written : among u) {name : String} (target : u.target = .generic name) :
    holds (bound.value name) := by
  rw [Bindings.value]
  cases found : bound.lookup name with
  | none => exact parts.parameter written target
  | some type =>
    obtain ⟨before, after, rfl, -⟩ := List.lookup_eq_some_iff.mp found
    exact known (name, type) (by simp)

theorem argumentsFor_holds {default : TypeUse → TypeRef} (generics : List Graph.Parameter)
    (defaults : ∀ u ∈ generics.filterMap Graph.Parameter.default, holds (default u))
    {given : List TypeRef} (known : ∀ type ∈ given, holds type) :
    ∀ type ∈ argumentsFor default generics given, holds type := by
  induction generics generalizing given with
  | nil => simp [argumentsFor]
  | cons parameter rest ih =>
    have later : ∀ u ∈ rest.filterMap Graph.Parameter.default, holds (default u) := by
      intro u member
      obtain ⟨p, inside, isDefault⟩ := List.mem_filterMap.mp member
      exact defaults u (List.mem_filterMap.mpr ⟨p, List.mem_cons_of_mem _ inside, isDefault⟩)
    cases given with
    | cons argument given =>
      rw [List.forall_mem_cons] at known
      rw [argumentsFor, List.forall_mem_cons]
      exact ⟨known.1, ih later known.2⟩
    | nil =>
      rw [argumentsFor, List.forall_mem_cons]
      refine ⟨?_, ih later known⟩
      cases isDefault : parameter.default with
      | none => exact parts.object
      | some u =>
        exact defaults u (List.mem_filterMap.mpr ⟨parameter, List.mem_cons_self, isDefault⟩)

omit parts in
/-- A writer that gives these uses the property, if what is bound has it. -/
def NodeWriter.Keeps (among : TypeUse → Prop) (holds : TypeRef → Prop) (w : NodeWriter) : Prop :=
  ∀ (bound : Bindings) u, (∀ entry ∈ bound, holds entry.2) → among u → holds (w.use bound u)

omit parts in
theorem NodeWriter.Keeps.uses {w : NodeWriter} (keeps : w.Keeps among holds) {bound : Bindings}
    (known : ∀ entry ∈ bound, holds entry.2) {uses : List TypeUse} (written : ∀ u ∈ uses, among u) :
    ∀ type ∈ w.uses bound uses, holds type := by
  rw [NodeWriter.uses, typeUses_eq_map]
  exact List.forall_mem_map.mpr fun u member => keeps bound u known (written u member)

omit parts in
/-- The inside of a node has the property if all writers that keep it give it to the inside. -/
def Guarded (among : TypeUse → Prop) (holds : TypeRef → Prop)
    (inside : NodeId → (NodeWriter → TypeRef) → TypeRef) : Prop :=
  ∀ id body, (∀ w : NodeWriter, w.Keeps among holds → holds (body w)) → holds (inside id body)

/-- One node: its arguments have the property, and so has what is written inside of it. -/
theorem nodeTypeWith_holds {inside : NodeId → (NodeWriter → TypeRef) → TypeRef}
    (guarded : Guarded among holds inside) {bound : Bindings}
    (known : ∀ entry ∈ bound, holds entry.2) {u : TypeUse} (written : among u)
    {id : NodeId} (target : u.target = .node id) {given : List TypeRef}
    (arguments : ∀ type ∈ given, holds type) : holds (nodeTypeWith n inside bound id given) := by
  cases found : n.graph.node? id with
  | none =>
    rw [nodeTypeWith_of_none found]
    exact parts.object
  | some node =>
    have use {v : TypeUse} (member : v ∈ writtenUses node.shape) : among v :=
      parts.inside written target found member
    have own {v : TypeUse} (member : v ∈ node.shape.ownUses) : among v :=
      use (List.mem_append_left _ (List.mem_append_right _ member))
    have base {root : NodeId} (isBase : node.shape.base? = some root) :
        among ⟨.node root, 0, node.shape.ownUses⟩ :=
      use (List.mem_append_right _ (by simp [isBase]))
    have defaults : ∀ v ∈ node.shape.generics.filterMap Graph.Parameter.default,
        holds (inside (n.graph.resolve id) fun w => w.use bound v) := fun v member =>
      guarded _ _ fun w keeps => keeps bound v known
        (use (List.mem_append_left _ (List.mem_append_left _ member)))
    have filled := argumentsFor_holds parts node.shape.generics defaults arguments
    have length := argumentsFor_length
      (fun v => inside (n.graph.resolve id) fun w => w.use bound v) node.shape.generics given
    unfold nodeTypeWith
    extract_lets place default named
    have holds_named {types : List TypeRef} (length : types.length = arity node.shape)
        (all : ∀ type ∈ types, holds type) : holds (named types) := by
      cases isName : n.names.get? place with
      | none => simpa only [named, isName] using parts.object
      | some name =>
        simpa only [named, isName] using parts.declared written target found isName length all
    rw [Graph.node?] at found
    simp only [place, found]
    cases shape : node.shape with
    | primitive kind => exact parts.keyword kind
    | array element generics =>
      rw [shape] at own filled
      refine guarded _ _ fun w keeps => parts.array (keeps _ element (fun entry member => ?_)
        (own (List.mem_singleton_self element)))
      exact filled entry.2 (List.of_mem_zip (List.mem_reverse.mp member)).2
    | classUnionInstance root members =>
      rw [shape] at base
      exact guarded _ _ fun w keeps => keeps bound _ known (base rfl)
    | classUnion arity =>
      refine holds_named (by simp [shape, Code.arity]) (List.forall_mem_map.mpr fun i _ => ?_)
      cases there : given[i]? with
      | none => exact parts.object
      | some type => exact arguments type (List.mem_of_getElem? there)
    | dictionary key value generics =>
      rw [shape] at own filled length holds_named
      cases node.flags.anonymous with
      | true =>
        exact guarded _ _ fun w keeps => parts.dictionary key
          (keeps bound value known (own (List.mem_singleton_self value)))
      | false => exact holds_named length filled
    | tuple elements generics =>
      rw [shape] at own filled length holds_named
      cases node.flags.anonymous with
      | true => exact guarded _ _ fun w keeps => parts.tuple (keeps.uses known fun v => own)
      | false => exact holds_named length filled
    | instantiation root members generics =>
      rw [shape] at base filled length holds_named
      cases node.flags.anonymous with
      | true => exact guarded _ _ fun w keeps => keeps bound _ known (base rfl)
      | false => exact holds_named length filled
    | record _ _ | stringUnion _ | constants _ =>
      rw [shape] at filled length holds_named
      exact holds_named length filled

end parts

section levels
variable {n : Naming} {among : TypeUse → Prop} {holds : TypeRef → Prop}

mutual

theorem typeUse_holds (parts : Compositional n among holds)
    {inside : NodeId → (NodeWriter → TypeRef) → TypeRef} (guarded : Guarded among holds inside)
    {bound : Bindings} (known : ∀ entry ∈ bound, holds entry.2) :
    (u : TypeUse) → among u → holds (NodeWriter.use (nodeTypeWith n inside) bound u)
  | ⟨.generic name, depth, arguments⟩, written => by
    rw [NodeWriter.use, typeUse]
    exact parts.arrays (parts.value known written rfl) depth
  | ⟨.node id, depth, arguments⟩, written => by
    rw [NodeWriter.use, typeUse]
    exact parts.arrays (nodeTypeWith_holds parts guarded known written rfl
      (typeUses_holds parts guarded known arguments fun v => parts.argument written)) depth

theorem typeUses_holds (parts : Compositional n among holds)
    {inside : NodeId → (NodeWriter → TypeRef) → TypeRef} (guarded : Guarded among holds inside)
    {bound : Bindings} (known : ∀ entry ∈ bound, holds entry.2) :
    (uses : List TypeUse) → (∀ u ∈ uses, among u) →
      ∀ type ∈ typeUses (nodeTypeWith n inside bound) bound uses, holds type
  | [], _ => by simp [typeUses]
  | u :: rest, written => by
    rw [List.forall_mem_cons] at written
    rw [typeUses, List.forall_mem_cons]
    exact ⟨typeUse_holds parts guarded known u written.1,
      typeUses_holds parts guarded known rest written.2⟩

end

variable (parts : Compositional n among holds)
include parts

/-- Every level: a node that is entered once more is written as `object`. -/
theorem nodeType_holds (level : Nat) (stack : List NodeId) :
    (nodeType n level stack).Keeps among holds := by
  induction level generalizing stack with
  | zero => exact fun bound u known => typeUse_holds parts (fun _ _ _ => parts.object) known u
  | succ level ih =>
    refine fun bound u known => typeUse_holds parts (fun id body inner => ?_) known u
    split_ifs
    · exact parts.object
    · exact inner _ (ih (id :: stack))

theorem Compositional.use {u : TypeUse} (written : among u) : holds (n.use u) :=
  nodeType_holds parts _ [] [] u (by simp) written

end levels

end TypeLoom.Code
