import Mathlib.Data.List.Basic
import TypeLoom.Graph.Shape

/-! What shapes refer to, and how it changes when references are mapped or parts are added. -/
namespace TypeLoom

namespace TypeUse

theorem nodesOfAll_eq (uses : List TypeUse) : nodesOfAll uses = uses.flatMap nodes := by
  induction uses with
  | nil => rfl
  | cons u rest ih => rw [nodesOfAll, ih, List.flatMap_cons]

mutual

theorem nodes_mapNodes (f : NodeId → NodeId) : (u : TypeUse) → (u.mapNodes f).nodes = u.nodes.map f
  | ⟨.node id, depth, arguments⟩ => by
    rw [mapNodes, nodes, nodes, nodesOfAll_mapAllNodes f arguments, List.map_cons]
  | ⟨.generic name, depth, arguments⟩ => by
    rw [mapNodes, nodes, nodes, nodesOfAll_mapAllNodes f arguments]

theorem nodesOfAll_mapAllNodes (f : NodeId → NodeId) :
    (uses : List TypeUse) → nodesOfAll (mapAllNodes f uses) = (nodesOfAll uses).map f
  | [] => rfl
  | u :: rest => by
    rw [mapAllNodes, nodesOfAll, nodesOfAll, nodes_mapNodes f u, nodesOfAll_mapAllNodes f rest,
      List.map_append]

end

mutual

theorem mapNodes_of_fixed (f : NodeId → NodeId) :
    (u : TypeUse) → (∀ id ∈ u.nodes, f id = id) → u.mapNodes f = u
  | ⟨.node id, depth, arguments⟩, fixed => by
    rw [nodes, List.forall_mem_cons] at fixed
    rw [mapNodes, fixed.1, mapAllNodes_of_fixed f arguments fixed.2]
  | ⟨.generic name, depth, arguments⟩, fixed => by
    rw [nodes] at fixed
    rw [mapNodes, mapAllNodes_of_fixed f arguments fixed]

theorem mapAllNodes_of_fixed (f : NodeId → NodeId) :
    (uses : List TypeUse) → (∀ id ∈ nodesOfAll uses, f id = id) → mapAllNodes f uses = uses
  | [], _ => rfl
  | u :: rest, fixed => by
    rw [nodesOfAll, List.forall_mem_append] at fixed
    rw [mapAllNodes, mapNodes_of_fixed f u fixed.1, mapAllNodes_of_fixed f rest fixed.2]

end

mutual

theorem mapNodes_mapNodes (f h : NodeId → NodeId) :
    (u : TypeUse) → (u.mapNodes f).mapNodes h = u.mapNodes (h ∘ f)
  | ⟨.node id, depth, arguments⟩ => by
    rw [mapNodes, mapNodes, mapNodes, mapAllNodes_mapAllNodes f h arguments]
    rfl
  | ⟨.generic name, depth, arguments⟩ => by
    rw [mapNodes, mapNodes, mapNodes, mapAllNodes_mapAllNodes f h arguments]

theorem mapAllNodes_mapAllNodes (f h : NodeId → NodeId) :
    (uses : List TypeUse) → mapAllNodes h (mapAllNodes f uses) = mapAllNodes (h ∘ f) uses
  | [] => rfl
  | u :: rest => by
    rw [mapAllNodes, mapAllNodes, mapAllNodes, mapNodes_mapNodes f h u,
      mapAllNodes_mapAllNodes f h rest]

end

theorem mapNodes_comp (f h : NodeId → NodeId) : mapNodes h ∘ mapNodes f = mapNodes (h ∘ f) :=
  funext (mapNodes_mapNodes f h)

theorem mem_nodes_of_target {u : TypeUse} {id : NodeId} (target : u.target = .node id) :
    id ∈ u.nodes := by
  obtain ⟨own, depth, arguments⟩ := u
  dsimp only at target
  rw [target, nodes]
  exact List.mem_cons_self

end TypeUse

namespace Graph

namespace Shape

theorem filterMap_default_mapParameters (f : NodeId → NodeId) (generics : List Parameter) :
    (mapParameters f generics).filterMap Parameter.default =
      (generics.filterMap Parameter.default).map (TypeUse.mapNodes f) := by
  rw [mapParameters, List.filterMap_map, List.map_filterMap]
  rfl

theorem typeUses_mapNodes (f : NodeId → NodeId) (s : Shape) :
    (s.mapNodes f).typeUses = s.typeUses.map (TypeUse.mapNodes f) := by
  cases s <;> simp [mapNodes, typeUses, generics, ownUses, filterMap_default_mapParameters]

theorem base?_mapNodes (f : NodeId → NodeId) (s : Shape) :
    (s.mapNodes f).base? = s.base?.map f := by
  cases s <;> rfl

theorem outgoing_mapNodes (f : NodeId → NodeId) (s : Shape) :
    (s.mapNodes f).outgoing = s.outgoing.map f := by
  have uses : (s.typeUses.map (TypeUse.mapNodes f)).flatMap TypeUse.nodes =
      (s.typeUses.flatMap TypeUse.nodes).map f := by
    rw [List.flatMap_map, List.map_flatMap]
    exact List.flatMap_congr fun u _ => TypeUse.nodes_mapNodes f u
  rw [outgoing, outgoing, typeUses_mapNodes, base?_mapNodes, uses, List.map_append]
  cases s.base? <;> rfl

theorem mem_outgoing (s : Shape) (id : NodeId) :
    id ∈ s.outgoing ↔ s.base? = some id ∨ ∃ u ∈ s.typeUses, id ∈ u.nodes := by
  rw [outgoing, List.mem_append, Option.mem_toList, List.mem_flatMap]

theorem map_of_fixed {α : Type} (f : α → α) (items : List α) (fixed : ∀ x ∈ items, f x = x) :
    items.map f = items := (List.map_congr_left fixed).trans (List.map_id items)

theorem mapParameters_of_fixed (f : NodeId → NodeId) (generics : List Parameter)
    (fixed : ∀ u ∈ generics.filterMap Parameter.default, u.mapNodes f = u) :
    mapParameters f generics = generics := by
  apply map_of_fixed
  intro p member
  obtain ⟨name, default⟩ := p
  cases default with
  | none => rfl
  | some u =>
    have same := fixed u (List.mem_filterMap.mpr ⟨⟨name, some u⟩, member, rfl⟩)
    rw [Option.map_some, same]

theorem mapNodes_of_fixed (f : NodeId → NodeId) (s : Shape) (fixed : ∀ id ∈ s.outgoing, f id = id) :
    s.mapNodes f = s := by
  have root : ∀ id, s.base? = some id → f id = id :=
    fun id found => fixed id ((s.mem_outgoing id).mpr (.inl found))
  have use : ∀ u ∈ s.typeUses, u.mapNodes f = u := fun u member =>
    TypeUse.mapNodes_of_fixed f u fun id inside =>
      fixed id ((s.mem_outgoing id).mpr (.inr ⟨u, member, inside⟩))
  have parameters : mapParameters f s.generics = s.generics :=
    mapParameters_of_fixed f s.generics fun u member => use u (List.mem_append_left _ member)
  have own : ∀ u ∈ s.ownUses, u.mapNodes f = u :=
    fun u member => use u (List.mem_append_right _ member)
  cases s with
  | record properties generics =>
    refine congrArg₂ record (map_of_fixed _ properties fun p member => ?_) parameters
    have type := own p.type (List.mem_map_of_mem member)
    rw [type]
  | array element generics =>
    exact congrArg₂ array (own element (List.mem_singleton_self element)) parameters
  | stringUnion members => rfl
  | primitive kind => rfl
  | dictionary key value generics =>
    exact congrArg₂ (dictionary key) (own value (List.mem_singleton_self value)) parameters
  | constants items =>
    refine congrArg constants (map_of_fixed _ items fun c member => ?_)
    have type := own c.type (List.mem_map_of_mem member)
    rw [type]
  | tuple elements generics => exact congrArg₂ tuple (map_of_fixed _ elements own) parameters
  | instantiation base arguments generics =>
    rw [mapNodes, root base rfl]
    exact congrArg₂ (instantiation base) (map_of_fixed _ arguments own) parameters
  | classUnion arity => rfl
  | classUnionInstance base members =>
    rw [mapNodes, root base rfl]
    exact congrArg (classUnionInstance base) (map_of_fixed _ members own)

theorem mapParameters_mapParameters (f h : NodeId → NodeId) (generics : List Parameter) :
    mapParameters h (mapParameters f generics) = mapParameters (h ∘ f) generics := by
  rw [mapParameters, mapParameters, mapParameters, List.map_map]
  refine List.map_congr_left fun p _ => ?_
  dsimp only [Function.comp_apply]
  rw [Option.map_map, TypeUse.mapNodes_comp]

theorem mapNodes_mapNodes (f h : NodeId → NodeId) (s : Shape) :
    (s.mapNodes f).mapNodes h = s.mapNodes (h ∘ f) := by
  cases s <;>
    simp [mapNodes, mapParameters_mapParameters, TypeUse.mapNodes_mapNodes, TypeUse.mapNodes_comp]

theorem mapNodes_comp (f h : NodeId → NodeId) : mapNodes h ∘ mapNodes f = mapNodes (h ∘ f) :=
  funext (mapNodes_mapNodes f h)

theorem mem_outgoing_addProperty {s : Shape} {p : Property} {id : NodeId}
    (member : id ∈ (s.addProperty p).outgoing) : id ∈ s.outgoing ∨ id ∈ p.type.nodes := by
  cases s with
  | record properties generics =>
    rw [addProperty] at member
    split_ifs at member with known
    · exact .inl member
    · simp only [outgoing, typeUses, base?, ownUses, Shape.generics, List.map_append,
        List.flatMap_append, List.mem_append] at member ⊢
      simpa [or_assoc] using member
  | _ => exact .inl member

theorem mem_outgoing_addMember {s : Shape} {m : Member} {id : NodeId}
    (member : id ∈ (s.addMember m).outgoing) : id ∈ s.outgoing := by
  cases s with
  | stringUnion members =>
    rw [addMember] at member
    split_ifs at member with known
    · exact member
    · simp [outgoing, typeUses, base?, ownUses, generics] at member
  | _ => exact member

theorem mem_outgoing_addParameter {s : Shape} {p : Parameter} {id : NodeId}
    (member : id ∈ (s.addParameter p).outgoing) :
    id ∈ s.outgoing ∨ ∃ u, p.default = some u ∧ id ∈ u.nodes := by
  rw [addParameter] at member
  split_ifs at member with known
  · exact .inl member
  · have base : (s.withGenerics (s.generics ++ [p])).base? = s.base? := by cases s <;> rfl
    have uses : ∀ u ∈ (s.withGenerics (s.generics ++ [p])).typeUses,
        u ∈ s.typeUses ∨ p.default = some u := by
      intro u inside
      cases s <;>
        simp [withGenerics, typeUses, generics, ownUses, List.filterMap_append] at inside ⊢ <;>
        grind
    rw [mem_outgoing, base] at member
    rcases member with found | ⟨u, inside, within⟩
    · exact .inl ((s.mem_outgoing id).mpr (.inl found))
    · rcases uses u inside with old | new
      · exact .inl ((s.mem_outgoing id).mpr (.inr ⟨u, old, within⟩))
      · exact .inr ⟨u, new, within⟩

theorem mem_outgoing_addConstant {s : Shape} {c : Constant} {id : NodeId}
    (member : id ∈ (s.addConstant c).outgoing) : id ∈ s.outgoing ∨ id ∈ c.type.nodes := by
  cases s with
  | constants items =>
    rw [addConstant] at member
    split_ifs at member with known
    · exact .inl member
    · simp only [outgoing, typeUses, base?, ownUses, generics, List.map_append,
        List.flatMap_append, List.mem_append] at member ⊢
      simpa [or_assoc] using member
  | _ => exact .inl member

end Shape

end Graph

end TypeLoom
