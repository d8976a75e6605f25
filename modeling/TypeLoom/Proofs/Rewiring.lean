import Mathlib.Data.List.Forall2
import TypeLoom.Proofs.References

/-! Shapes with other references in the same places. Two shapes are rewired if they agree in
everything but the nodes that they name. What is left of a shape then are its references in order:
both together determine it. Main result: mapping the references is the one way to rewire a shape
that sends each of them through the map. -/
namespace TypeLoom

namespace TypeUse

mutual

/-- The second use names other nodes in the same places. -/
inductive Rewired : TypeUse → TypeUse → Prop
  | node {id id' : NodeId} {depth : Nat} {arguments arguments' : List TypeUse}
      (inner : AllRewired arguments arguments') :
      Rewired ⟨.node id, depth, arguments⟩ ⟨.node id', depth, arguments'⟩
  | generic {name : String} {depth : Nat} {arguments arguments' : List TypeUse}
      (inner : AllRewired arguments arguments') :
      Rewired ⟨.generic name, depth, arguments⟩ ⟨.generic name, depth, arguments'⟩

inductive AllRewired : List TypeUse → List TypeUse → Prop
  | nil : AllRewired [] []
  | cons {u v : TypeUse} {us vs : List TypeUse} (first : Rewired u v) (others : AllRewired us vs) :
      AllRewired (u :: us) (v :: vs)

end

mutual

theorem rewired_mapNodes (f : NodeId → NodeId) : (u : TypeUse) → Rewired u (u.mapNodes f)
  | ⟨.node id, depth, arguments⟩ => by
    rw [mapNodes]
    exact .node (allRewired_mapAllNodes f arguments)
  | ⟨.generic name, depth, arguments⟩ => by
    rw [mapNodes]
    exact .generic (allRewired_mapAllNodes f arguments)

theorem allRewired_mapAllNodes (f : NodeId → NodeId) :
    (uses : List TypeUse) → AllRewired uses (mapAllNodes f uses)
  | [] => .nil
  | u :: rest => by
    rw [mapAllNodes]
    exact .cons (rewired_mapNodes f u) (allRewired_mapAllNodes f rest)

end

mutual

theorem Rewired.length_nodes : (u : TypeUse) → {v : TypeUse} → Rewired u v →
    v.nodes.length = u.nodes.length
  | ⟨.node id, depth, arguments⟩, _, rewired => by
    cases rewired with
    | node inner =>
      rw [nodes, nodes, List.length_cons, List.length_cons, AllRewired.length_nodes arguments inner]
  | ⟨.generic name, depth, arguments⟩, _, rewired => by
    cases rewired with
    | generic inner => rw [nodes, nodes, AllRewired.length_nodes arguments inner]

theorem AllRewired.length_nodes : (uses : List TypeUse) → {uses' : List TypeUse} →
    AllRewired uses uses' → (nodesOfAll uses').length = (nodesOfAll uses).length
  | [], _, rewired => by
    cases rewired
    rfl
  | u :: rest, _, rewired => by
    cases rewired with
    | cons first others =>
      rw [nodesOfAll, nodesOfAll, List.length_append, List.length_append, first.length_nodes u,
        others.length_nodes rest]

end

mutual

theorem Rewired.eq_mapNodes {f : NodeId → NodeId} : (u : TypeUse) → {v : TypeUse} → Rewired u v →
    v.nodes = u.nodes.map f → v = u.mapNodes f
  | ⟨.node id, depth, arguments⟩, _, rewired, named => by
    cases rewired with
    | node inner =>
      rw [nodes, nodes, List.map_cons, List.cons.injEq] at named
      rw [mapNodes, named.1, inner.eq_mapAllNodes arguments named.2]
  | ⟨.generic name, depth, arguments⟩, _, rewired, named => by
    cases rewired with
    | generic inner =>
      rw [nodes, nodes] at named
      rw [mapNodes, inner.eq_mapAllNodes arguments named]

theorem AllRewired.eq_mapAllNodes {f : NodeId → NodeId} : (uses : List TypeUse) →
    {uses' : List TypeUse} → AllRewired uses uses' → nodesOfAll uses' = (nodesOfAll uses).map f →
    uses' = mapAllNodes f uses
  | [], _, rewired, _ => by
    cases rewired
    rfl
  | u :: rest, _, rewired, named => by
    cases rewired with
    | cons first others =>
      rw [nodesOfAll, nodesOfAll, List.map_append] at named
      obtain ⟨front, back⟩ := List.append_inj named (by rw [List.length_map, first.length_nodes u])
      rw [mapAllNodes, first.eq_mapNodes u front, others.eq_mapAllNodes rest back]

end

end TypeUse

namespace Graph

def Parameter.Rewired (p q : Parameter) : Prop :=
  q.name = p.name ∧ Option.Rel TypeUse.Rewired p.default q.default

def Property.Rewired (p q : Property) : Prop :=
  q = { p with type := q.type } ∧ p.type.Rewired q.type

def Constant.Rewired (c d : Constant) : Prop :=
  d = { c with type := d.type } ∧ c.type.Rewired d.type

/-- The second shape is of the same kind, and all that it holds is the same but for the nodes that
it refers to. -/
inductive Shape.Rewired : Shape → Shape → Prop
  | record {properties properties' : List Property} {generics generics' : List Parameter}
      (own : List.Forall₂ Property.Rewired properties properties')
      (parameters : List.Forall₂ Parameter.Rewired generics generics') :
      Rewired (.record properties generics) (.record properties' generics')
  | array {element element' : TypeUse} {generics generics' : List Parameter}
      (own : element.Rewired element')
      (parameters : List.Forall₂ Parameter.Rewired generics generics') :
      Rewired (.array element generics) (.array element' generics')
  | stringUnion (members : List Member) : Rewired (.stringUnion members) (.stringUnion members)
  | primitive (kind : Primitive) : Rewired (.primitive kind) (.primitive kind)
  | dictionary (key : IndexKey) {value value' : TypeUse} {generics generics' : List Parameter}
      (own : value.Rewired value')
      (parameters : List.Forall₂ Parameter.Rewired generics generics') :
      Rewired (.dictionary key value generics) (.dictionary key value' generics')
  | constants {items items' : List Constant} (own : List.Forall₂ Constant.Rewired items items') :
      Rewired (.constants items) (.constants items')
  | tuple {elements elements' : List TypeUse} {generics generics' : List Parameter}
      (own : List.Forall₂ TypeUse.Rewired elements elements')
      (parameters : List.Forall₂ Parameter.Rewired generics generics') :
      Rewired (.tuple elements generics) (.tuple elements' generics')
  | instantiation {base base' : NodeId} {arguments arguments' : List TypeUse}
      {generics generics' : List Parameter}
      (own : List.Forall₂ TypeUse.Rewired arguments arguments')
      (parameters : List.Forall₂ Parameter.Rewired generics generics') :
      Rewired (.instantiation base arguments generics) (.instantiation base' arguments' generics')
  | classUnion (arity : Nat) : Rewired (.classUnion arity) (.classUnion arity)
  | classUnionInstance {base base' : NodeId} {members members' : List TypeUse}
      (own : List.Forall₂ TypeUse.Rewired members members') :
      Rewired (.classUnionInstance base members) (.classUnionInstance base' members')

theorem forall₂_map_self {α : Type} {r : α → α → Prop} {f : α → α} (each : ∀ a, r a (f a))
    (items : List α) : List.Forall₂ r items (items.map f) := by
  rw [List.forall₂_map_right_iff, List.forall₂_same]
  exact fun a _ => each a

theorem rewired_mapParameters (f : NodeId → NodeId) (generics : List Parameter) :
    List.Forall₂ Parameter.Rewired generics (Shape.mapParameters f generics) := by
  refine forall₂_map_self (fun p => ⟨rfl, ?_⟩) generics
  obtain ⟨name, default⟩ := p
  cases default with
  | none => exact .none
  | some u => exact .some (u.rewired_mapNodes f)

theorem Shape.rewired_mapNodes (f : NodeId → NodeId) (s : Shape) : s.Rewired (s.mapNodes f) := by
  have parameters := rewired_mapParameters f
  have uses := forall₂_map_self (TypeUse.rewired_mapNodes f)
  cases s with
  | record properties generics =>
    exact .record (forall₂_map_self (fun p => ⟨rfl, p.type.rewired_mapNodes f⟩) properties)
      (parameters generics)
  | array element generics => exact .array (element.rewired_mapNodes f) (parameters generics)
  | stringUnion members => exact .stringUnion members
  | primitive kind => exact .primitive kind
  | dictionary key value generics =>
    exact .dictionary key (value.rewired_mapNodes f) (parameters generics)
  | constants items =>
    exact .constants (forall₂_map_self (fun c => ⟨rfl, c.type.rewired_mapNodes f⟩) items)
  | tuple elements generics => exact .tuple (uses elements) (parameters generics)
  | instantiation base arguments generics =>
    exact .instantiation (uses arguments) (parameters generics)
  | classUnion arity => exact .classUnion arity
  | classUnionInstance base members => exact .classUnionInstance (uses members)

section lists
variable {f : NodeId → NodeId}

theorem length_flatMap_nodes {uses uses' : List TypeUse}
    (rewired : List.Forall₂ TypeUse.Rewired uses uses') :
    (uses'.flatMap TypeUse.nodes).length = (uses.flatMap TypeUse.nodes).length := by
  induction rewired with
  | nil => rfl
  | @cons u v _ _ first _ ih =>
    rw [List.flatMap_cons, List.flatMap_cons, List.length_append, List.length_append,
      first.length_nodes u, ih]

theorem eq_map_mapNodes {uses uses' : List TypeUse}
    (rewired : List.Forall₂ TypeUse.Rewired uses uses')
    (named : uses'.flatMap TypeUse.nodes = (uses.flatMap TypeUse.nodes).map f) :
    uses' = uses.map (TypeUse.mapNodes f) := by
  induction rewired with
  | nil => rfl
  | @cons u v _ _ first _ ih =>
    rw [List.flatMap_cons, List.flatMap_cons, List.map_append] at named
    obtain ⟨front, back⟩ := List.append_inj named (by rw [List.length_map, first.length_nodes u])
    rw [List.map_cons, first.eq_mapNodes u front, ih back]

theorem eq_map_of_field {α β : Type} {field : α → β} (set : α → β → α) {r : α → α → Prop}
    (only : ∀ a b, r a b → b = set a (field b)) {g : β → β} {items items' : List α}
    (related : List.Forall₂ r items items')
    (fields : items'.map field = (items.map field).map g) :
    items' = items.map fun a => set a (g (field a)) := by
  induction related with
  | nil => rfl
  | @cons a b _ _ first _ ih =>
    rw [List.map_cons, List.map_cons, List.map_cons, List.cons.injEq] at fields
    rw [List.map_cons, only a b first, fields.1, ih fields.2]

theorem rewired_defaults {generics generics' : List Parameter}
    (rewired : List.Forall₂ Parameter.Rewired generics generics') :
    List.Forall₂ TypeUse.Rewired (generics.filterMap Parameter.default)
      (generics'.filterMap Parameter.default) := by
  induction rewired with
  | nil => exact .nil
  | @cons p q _ _ first _ ih =>
    obtain ⟨name, default⟩ := p
    obtain ⟨name', default'⟩ := q
    obtain ⟨-, default⟩ := first
    cases default with
    | none => exact ih
    | some use => exact .cons use ih

theorem eq_mapParameters {generics generics' : List Parameter}
    (rewired : List.Forall₂ Parameter.Rewired generics generics')
    (defaults : generics'.filterMap Parameter.default =
      (generics.filterMap Parameter.default).map (TypeUse.mapNodes f)) :
    generics' = Shape.mapParameters f generics := by
  induction rewired with
  | nil => rfl
  | @cons p q _ _ first _ ih =>
    obtain ⟨name, default⟩ := p
    obtain ⟨name', default'⟩ := q
    obtain ⟨same, default⟩ := first
    dsimp only at same default
    subst same
    cases default with
    | none => exact congrArg _ (ih defaults)
    | some use =>
      obtain ⟨own, others⟩ := List.cons.inj defaults
      rw [own, ih others]
      rfl

end lists

namespace Shape
variable {s t : Shape} {f : NodeId → NodeId}

theorem Rewired.label (rewired : s.Rewired t) : t.label = s.label := by
  cases rewired <;> rfl

theorem Rewired.isSome_base? (rewired : s.Rewired t) : t.base?.isSome = s.base?.isSome := by
  cases rewired <;> rfl

theorem Rewired.generics (rewired : s.Rewired t) :
    List.Forall₂ Parameter.Rewired s.generics t.generics := by
  cases rewired with
  | record _ parameters | array _ parameters | dictionary _ _ parameters | tuple _ parameters
  | instantiation _ parameters => exact parameters
  | stringUnion _ | primitive _ | constants _ | classUnion _ | classUnionInstance _ => exact .nil

theorem Rewired.ownUses (rewired : s.Rewired t) :
    List.Forall₂ TypeUse.Rewired s.ownUses t.ownUses := by
  cases rewired with
  | record own _ =>
    rw [Shape.ownUses, Shape.ownUses, List.forall₂_map_left_iff, List.forall₂_map_right_iff]
    exact own.imp fun _ _ each => each.2
  | constants own =>
    rw [Shape.ownUses, Shape.ownUses, List.forall₂_map_left_iff, List.forall₂_map_right_iff]
    exact own.imp fun _ _ each => each.2
  | array own _ | dictionary _ own _ => exact .cons own .nil
  | tuple own _ | instantiation own _ | classUnionInstance own => exact own
  | stringUnion _ | primitive _ | classUnion _ => exact .nil

/-- Equal references are equal at each place: the base, the defaults and the uses of the shape
itself are told apart by their numbers of nodes. -/
theorem Rewired.places (rewired : s.Rewired t) (named : t.outgoing = s.outgoing.map f) :
    t.base? = s.base?.map f ∧
      t.generics.filterMap Parameter.default =
        (s.generics.filterMap Parameter.default).map (TypeUse.mapNodes f) ∧
      t.ownUses = s.ownUses.map (TypeUse.mapNodes f) := by
  have defaults := rewired_defaults rewired.generics
  simp only [outgoing, typeUses, List.flatMap_append, List.map_append] at named
  have bases : t.base?.toList.length = (s.base?.toList.map f).length := by
    have same := rewired.isSome_base?
    revert same
    cases t.base? <;> cases s.base? <;> simp
  obtain ⟨base, uses⟩ := List.append_inj named bases
  obtain ⟨front, back⟩ := List.append_inj uses
    (by rw [List.length_map, length_flatMap_nodes defaults])
  refine ⟨?_, eq_map_mapNodes defaults front, eq_map_mapNodes rewired.ownUses back⟩
  revert base
  cases t.base? <;> cases s.base? <;> simp

theorem Rewired.eq_mapNodes (rewired : s.Rewired t) (named : t.outgoing = s.outgoing.map f) :
    t = s.mapNodes f := by
  obtain ⟨base, defaults, uses⟩ := rewired.places named
  cases rewired with
  | record own parameters =>
    have properties := eq_map_of_field (fun p type => { p with type := type })
      (fun _ _ each => each.1) own uses
    exact congrArg₂ Shape.record properties (eq_mapParameters parameters defaults)
  | array _ parameters =>
    exact congrArg₂ Shape.array (List.cons.inj uses).1 (eq_mapParameters parameters defaults)
  | stringUnion members => rfl
  | primitive kind => rfl
  | dictionary key _ parameters =>
    exact congrArg₂ (Shape.dictionary key) (List.cons.inj uses).1
      (eq_mapParameters parameters defaults)
  | constants own =>
    have items := eq_map_of_field (fun c type => { c with type := type })
      (fun _ _ each => each.1) own uses
    exact congrArg Shape.constants items
  | tuple _ parameters => exact congrArg₂ Shape.tuple uses (eq_mapParameters parameters defaults)
  | instantiation _ parameters =>
    obtain rfl := Option.some.inj base
    exact congrArg₂ (Shape.instantiation _) uses (eq_mapParameters parameters defaults)
  | classUnion arity => rfl
  | classUnionInstance _ =>
    obtain rfl := Option.some.inj base
    exact congrArg (Shape.classUnionInstance _) uses

/-- Mapping the references of a shape sends what it refers to through the map, in order and with
nested arguments and defaults, maps each of its uses, and leaves the kind of the shape and all else
that it holds as it is; no other shape is like this. The identity changes nothing, and two maps one
after the other are one map. -/
theorem mapNodes_rewires (f : NodeId → NodeId) (s : Shape) :
    (s.mapNodes f).outgoing = s.outgoing.map f ∧
    (s.mapNodes f).typeUses = s.typeUses.map (TypeUse.mapNodes f) ∧
    (s.mapNodes f).label = s.label ∧
    s.Rewired (s.mapNodes f) ∧
    (∀ t, s.Rewired t → t.outgoing = s.outgoing.map f → t = s.mapNodes f) ∧
    s.mapNodes id = s ∧
    ∀ h : NodeId → NodeId, (s.mapNodes f).mapNodes h = s.mapNodes (h ∘ f) := by
  have rewired := s.rewired_mapNodes f
  refine ⟨outgoing_mapNodes f s, typeUses_mapNodes f s, rewired.label, rewired, ?_, ?_,
    fun h => mapNodes_mapNodes f h s⟩
  · exact fun t other named => other.eq_mapNodes named
  · exact mapNodes_of_fixed id s fun _ _ => rfl

end Shape

end Graph

end TypeLoom
