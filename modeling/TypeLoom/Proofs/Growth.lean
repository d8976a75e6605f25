import Mathlib.Logic.Relation
import TypeLoom.Proofs.FreshNames

/-! How a graph grows before anything is merged. Nodes are appended under free names, shapes of
nodes are added to, and nothing else happens; in particular no node is ever replaced, so all nodes
stay live. The functions that an ingest calls are chains of such steps. -/
namespace TypeLoom.Graph
open Relation

/-- A graph in which no node has been replaced, with all references and tables inside. Every base of
class unions is in the table of bases. -/
structure Intact (g : Graph) : Prop where
  redirects : g.redirects = {}
  closed : g.Closed
  keys : ∀ key id, g.keys.get? key = some id → id < g.nodes.size
  primitives : ∀ kind id, g.primitives.get? kind = some id → id < g.nodes.size
  constants : ∀ id, g.constants = some id → id < g.nodes.size
  unionBases : ∀ arity id, g.unionBases.get? arity = some id → id < g.nodes.size
  bases : ∀ (id : NodeId) (node : Node) (arity : Nat), g.nodes[id]? = some node →
    node.shape = .classUnion arity → g.unionBases.contains arity = true

theorem empty_intact : empty.Intact where
  redirects := rfl
  closed := Operation.empty_closed
  keys := by simp [empty]
  primitives := by simp [empty]
  constants := by simp [empty]
  unionBases := by simp [empty]
  bases := by simp [empty]

namespace Intact
variable {g : Graph} (intact : g.Intact)
include intact

theorem sound : g.Sound := by
  unfold Sound
  rw [intact.redirects]
  exact .empty _

theorem resolve_eq (id : NodeId) : g.resolve id = id := by
  apply resolve_of_end
  rw [intact.redirects]
  rfl

theorem isLive_iff_lt (id : NodeId) : g.isLive id = true ↔ id < g.nodes.size := by
  rw [isLive_iff, intact.redirects]
  exact and_iff_left rfl

end Intact

/-- A node that can be appended as it is. If it had to give up a name, some node has that name. -/
structure Placed (g : Graph) (node : Node) : Prop where
  named : node.shape.isNamed = true
  inside : ∀ id ∈ node.shape.outgoing, id < g.nodes.size
  free : g.liveByName node.name = none
  former : ∀ former, node.formerName = some former →
    (g.liveByName former).isSome = true ∧ ∃ before, node.name = renamed before
  visible : Text.isBlankText node.name.toList = false

/-- A change of shapes that keeps their kind, takes no constants away and brings in references to
existing nodes only. -/
structure Reshapes (g : Graph) (f : Shape → Shape) : Prop where
  label : ∀ shape, (f shape).label = shape.label
  union : ∀ arity, f (.classUnion arity) = .classUnion arity
  filled : ∀ items, f (.constants items) = .constants [] → items = []
  inside : ∀ shape, ∀ id ∈ (f shape).outgoing, id ∈ shape.outgoing ∨ id < g.nodes.size

def primitiveNode (kind : Primitive) : Node :=
  { name := kind.label, key := kind.label, shape := .primitive kind }

def constantsOf (constant : Constant) : Node :=
  Node.asPublic { name := constantsKey, key := constantsKey, shape := .constants [constant] }

/-- What can happen to a graph in one step. -/
inductive Step (g : Graph) : Graph → Prop
  | note (issued : Nat) (findings : List Finding) :
      Step g { g with issued := issued, findings := findings }
  | primitive (kind : Primitive) :
      Step g { (g.push (primitiveNode kind)).2 with
        primitives := g.primitives.insert kind g.nodes.size }
  | constants (first : g.constants = none) {constant : Constant}
      (inside : ∀ id ∈ constant.type.nodes, id < g.nodes.size) :
      Step g { (g.push (constantsOf constant)).2 with constants := some g.nodes.size }
  | append {node : Node} (placed : g.Placed node)
      (solid : ∀ arity, node.shape ≠ .classUnion arity) : Step g (g.push node).2
  | base {node : Node} {arity : Nat} (placed : g.Placed node)
      (shape : node.shape = .classUnion arity) :
      Step g { (g.push node).2 with unionBases := g.unionBases.insert arity g.nodes.size }
  /-- A node that is there takes the place of a base in the table. -/
  | enlist (arity : Nat) {id : NodeId} (inside : id < g.nodes.size) :
      Step g { g with unionBases := g.unionBases.insert arity id }
  | reshape (id : NodeId) {f : Shape → Shape} (reshapes : g.Reshapes f) :
      Step g (g.modifyShape id f)

abbrev Steps : Graph → Graph → Prop := ReflTransGen Step

section tables
variable {κ ν : Type} [DecidableEq κ] (t : Table κ ν)

theorem get?_insert_cases {key other : κ} {value found : ν}
    (hit : (t.insert key value).get? other = some found) :
    found = value ∨ t.get? other = some found := by
  rw [Table.get?_insert] at hit
  split_ifs at hit
  · exact .inl (Option.some.inj hit).symm
  · exact .inr hit

theorem contains_insert (key other : κ) (value : ν) :
    (t.insert key value).contains other = true ↔ other = key ∨ t.contains other = true := by
  rw [Table.contains_eq_isSome, Table.contains_eq_isSome, Table.get?_insert]
  split_ifs with same <;> simp [same]

end tables

theorem Intact.of_push {g g' : Graph} {node : Node} (intact : g.Intact)
    (nodes : g'.nodes = g.nodes.push node) (redirects : g'.redirects = g.redirects)
    (inside : ∀ id ∈ node.shape.outgoing, id < g.nodes.size)
    (keys : g'.keys = g.keys.insert node.key g.nodes.size)
    (primitives : ∀ kind id, g'.primitives.get? kind = some id →
      id = g.nodes.size ∨ g.primitives.get? kind = some id)
    (constants : ∀ id, g'.constants = some id → id = g.nodes.size ∨ g.constants = some id)
    (unionBases : ∀ arity id, g'.unionBases.get? arity = some id →
      id = g.nodes.size ∨ g.unionBases.get? arity = some id)
    (bases : ∀ arity, node.shape = .classUnion arity ∨ g.unionBases.contains arity = true →
      g'.unionBases.contains arity = true) : g'.Intact := by
  have size : g'.nodes.size = g.nodes.size + 1 := by rw [nodes, Array.size_push]
  have within {id : NodeId} {P : Prop} (either : id = g.nodes.size ∨ P)
      (old : P → id < g.nodes.size) : id < g'.nodes.size := by
    rw [size]
    rcases either with new | before
    · exact new ▸ Nat.lt_succ_self _
    · exact Nat.lt_succ_of_lt (old before)
  refine ⟨redirects.trans intact.redirects, intact.closed.of_push nodes inside, ?_, ?_, ?_, ?_, ?_⟩
  · intro key id found
    rw [keys] at found
    exact within (get?_insert_cases _ found) (intact.keys key id)
  · exact fun kind id found => within (primitives kind id found) (intact.primitives kind id)
  · exact fun id found => within (constants id found) (intact.constants id)
  · exact fun arity id found => within (unionBases arity id found) (intact.unionBases arity id)
  · intro id other arity found shape
    rw [nodes, Array.getElem?_push] at found
    apply bases
    split_ifs at found
    · cases found
      exact .inl shape
    · exact .inr (intact.bases id other arity found shape)

theorem modifyShape_getElem? (g : Graph) (id : NodeId) (f : Shape → Shape) (other : NodeId) :
    (g.modifyShape id f).nodes[other]? = if g.resolve id = other
      then (g.nodes[other]?).map fun n => { n with shape := f n.shape } else g.nodes[other]? := by
  have nodes : (g.modifyShape id f).nodes =
      g.nodes.modify (g.resolve id) fun n => { n with shape := f n.shape } := rfl
  rw [nodes, Array.getElem?_modify]

theorem modifyShape_size (g : Graph) (id : NodeId) (f : Shape → Shape) :
    (g.modifyShape id f).nodes.size = g.nodes.size := by
  simp [modifyShape, modifyNode, touch]

theorem node_of_push {g : Graph} {id : NodeId} {node last : Node}
    (found : (g.push last).2.nodes[id]? = some node) :
    id = g.nodes.size ∧ node = last ∨ g.nodes[id]? = some node := by
  rw [push_nodes, Array.getElem?_push] at found
  split_ifs at found with same
  · exact .inl ⟨same, (Option.some.inj found).symm⟩
  · exact .inr found

theorem node_of_modifyShape {g : Graph} {id other : NodeId} {f : Shape → Shape} {node : Node}
    (found : (g.modifyShape id f).nodes[other]? = some node) :
    ∃ before, g.nodes[other]? = some before ∧
      (node = before ∨ node = { before with shape := f before.shape }) := by
  rw [modifyShape_getElem?] at found
  split_ifs at found
  · obtain ⟨before, there, rfl⟩ := Option.map_eq_some_iff.mp found
    exact ⟨before, there, .inr rfl⟩
  · exact ⟨node, found, .inl rfl⟩

theorem Reshapes.classUnion {g : Graph} {f : Shape → Shape} (reshapes : g.Reshapes f)
    {shape : Shape}
    {arity : Nat} (union : f shape = .classUnion arity) : shape = .classUnion arity := by
  obtain ⟨own, isUnion⟩ := Shape.label_eq_classUnion (reshapes.label shape).symm union
  rw [isUnion, reshapes.union] at union
  exact isUnion.trans union

theorem Step.intact {g g' : Graph} (step : Step g g') (intact : g.Intact) : g'.Intact := by
  cases step with
  | note issued findings =>
    exact ⟨intact.redirects, intact.closed, intact.keys, intact.primitives, intact.constants,
      intact.unionBases, intact.bases⟩
  | primitive kind =>
    refine intact.of_push rfl rfl (fun id member => ?_) rfl (fun _ _ => get?_insert_cases _)
      (fun _ => .inr) (fun _ _ => .inr) ?_
    · cases member
    · rintro arity (shape | old)
      · cases shape
      · exact old
  | @constants first constant inside =>
    refine intact.of_push rfl rfl (fun id member => ?_) rfl (fun _ _ => .inr) ?_
      (fun _ _ => .inr) ?_
    · have own : id ∈ constant.type.nodes := by
        simpa [constantsOf, Node.asPublic, Shape.outgoing, Shape.typeUses, Shape.base?,
          Shape.ownUses, Shape.generics] using member
      exact inside id own
    · exact fun id found => .inl (Option.some.inj found).symm
    · rintro arity (shape | old)
      · cases shape
      · exact old
  | append placed solid =>
    refine intact.of_push rfl rfl placed.inside rfl (fun _ _ => .inr) (fun _ => .inr)
      (fun _ _ => .inr) ?_
    rintro arity (shape | old)
    · exact absurd shape (solid arity)
    · exact old
  | base placed shape =>
    refine intact.of_push rfl rfl placed.inside rfl (fun _ _ => .inr) (fun _ => .inr)
      (fun _ _ => get?_insert_cases _) ?_
    rintro arity (same | old)
    · rw [shape] at same
      cases same
      exact (contains_insert _ _ _ _).mpr (.inl rfl)
    · exact (contains_insert _ _ _ _).mpr (.inr old)
  | enlist arity inside =>
    refine ⟨intact.redirects, intact.closed, intact.keys, intact.primitives, intact.constants,
      ?_, ?_⟩
    · intro other id found
      rcases get?_insert_cases _ found with rfl | old
      · exact inside
      · exact intact.unionBases other id old
    · intro id node other found shape
      exact (contains_insert _ _ _ _).mpr (.inr (intact.bases id node other found shape))
  | @reshape id f reshapes =>
    have size := modifyShape_size g id f
    refine ⟨intact.redirects, ?_, ?_, ?_, ?_, ?_, ?_⟩
    · intro other node found target member
      rw [size]
      obtain ⟨before, there, rfl | rfl⟩ := node_of_modifyShape found
      · exact intact.closed there target member
      · rcases reshapes.inside before.shape target member with old | inside
        · exact intact.closed there target old
        · exact inside
    · rw [size]
      exact intact.keys
    · rw [size]
      exact intact.primitives
    · rw [size]
      exact intact.constants
    · rw [size]
      exact intact.unionBases
    · intro other node arity found shape
      obtain ⟨before, there, rfl | rfl⟩ := node_of_modifyShape found
      · exact intact.bases other node arity there shape
      · exact intact.bases other before arity there (reshapes.classUnion shape)

theorem Steps.intact {g g' : Graph} (steps : Steps g g') (intact : g.Intact) : g'.Intact := by
  induction steps with
  | refl => exact intact
  | tail _ step ih => exact step.intact ih

/-- What is true of every new node, and still so after a change of shape. -/
structure Durable (P : Node → Prop) : Prop where
  primitive : ∀ kind, P (primitiveNode kind)
  constants : ∀ constant, P (constantsOf constant)
  placed : ∀ {g : Graph} {node : Node}, g.Placed node → P node
  reshape : ∀ {g : Graph} {f : Shape → Shape} {node : Node}, g.Reshapes f → P node →
    P { node with shape := f node.shape }

section durable
variable {P : Node → Prop} (durable : Durable P) {g g' : Graph}
include durable

theorem Durable.step (step : Step g g') (before : ∀ node ∈ g.nodes, P node) :
    ∀ node ∈ g'.nodes, P node := by
  have pushed {last : Node} (own : P last) : ∀ node ∈ g.nodes.push last, P node := by
    intro node mem
    obtain old | rfl := Array.mem_push.mp mem
    · exact before node old
    · exact own
  cases step with
  | note _ _ | enlist _ _ => exact before
  | primitive kind => exact pushed (durable.primitive kind)
  | @constants _ constant _ => exact pushed (durable.constants constant)
  | append placed _ => exact pushed (durable.placed placed)
  | base placed _ => exact pushed (durable.placed placed)
  | reshape _ reshapes =>
    intro node mem
    obtain ⟨id, found⟩ := Array.mem_iff_getElem?.mp mem
    obtain ⟨old, there, rfl | rfl⟩ := node_of_modifyShape found
    · exact before node (Array.mem_of_getElem? there)
    · exact durable.reshape reshapes (before old (Array.mem_of_getElem? there))

theorem Durable.steps (steps : Steps empty g) : ∀ node ∈ g.nodes, P node := by
  induction steps with
  | refl => simp [empty]
  | tail _ step ih => exact durable.step step ih

end durable

/-- How a node gets its key: from its own origin, or from one that is issued to it. -/
inductive Identified (g : Graph) (node : Node) : Node → Graph → Prop
  | given {origin : String} (own : node.origin = some origin) :
      Identified g node { node with key := node.name ++ "#" ++ origin } g
  | issued (without : node.origin = none) :
      Identified g node
        { node with
          key := issuedKey node.name (g.issued + 1)
          origin := some ("synthetic-" ++ toString (g.issued + 1)) }
        { g with issued := g.issued + 1 }

theorem identify_cases {g g' : Graph} {node keyed : Node} (named : node.shape.isNamed = true)
    (done : g.identify node = .ok (keyed, g')) :
    Text.isBlankText node.name.toList = false ∧ Identified g node keyed g' := by
  rw [identify] at done
  split at done
  · rename_i shape
    rw [shape] at named
    cases named
  · rename_i shape
    rw [shape] at named
    cases named
  · split_ifs at done with blank
    refine ⟨Bool.eq_false_of_not_eq_true blank, ?_⟩
    split at done
    · rename_i own
      cases done
      exact .given own
    · rename_i without
      cases done
      exact .issued without

section identified
variable {g g' : Graph} {node keyed : Node} (identified : Identified g node keyed g')
include identified

theorem Identified.node_eq : keyed = { node with key := keyed.key, origin := keyed.origin } := by
  cases identified <;> rfl

theorem Identified.graph_eq : g' = { g with issued := g'.issued } := by
  cases identified <;> rfl

theorem Identified.issued_le : g.issued ≤ g'.issued := by
  cases identified with
  | given own => exact le_rfl
  | issued without => exact Nat.le_succ _

end identified

theorem isBlank_of_isDigit {c : Char} (digit : c.isDigit = true) : Text.isBlank c = false := by
  have low : 48 ≤ c.toNat := (Char.isDigit_iff_toNat.mp digit).1
  have high : c.toNat ≤ 57 := (Char.isDigit_iff_toNat.mp digit).2
  simp only [Text.isBlank]
  grind

theorem renamed_visible (node : Node) : Text.isBlankText (renamed node).toList = false := by
  obtain ⟨c, last, ending⟩ := renamed_getLast? node
  have visible : Text.isBlank c = false := by
    rw [Bool.or_eq_true, beq_iff_eq] at ending
    obtain digit | rfl := ending
    · exact isBlank_of_isDigit digit
    · rfl
  rw [Text.isBlankText, List.all_eq_false]
  exact ⟨c, List.mem_of_getLast? last, by rw [visible]; exact Bool.false_ne_true⟩

theorem settle_placed {g : Graph} {node : Node} (named : node.shape.isNamed = true)
    (visible : Text.isBlankText node.name.toList = false)
    (first : node.formerName = none) (inside : ∀ id ∈ node.shape.outgoing, id < g.nodes.size)
    (other : ∀ (id : NodeId) (taken : Node), g.nodes[id]? = some taken →
      sameUnion node.shape taken.shape = false) :
    ∃ placed more, g.Placement node placed ∧
      ({ g with findings := g.findings ++ more } : Graph).Placed placed ∧
      settle (g.names.size + 1) g node =
        ({ g with findings := g.findings ++ more } : Graph).push placed := by
  have room : g.names.keys.length < g.names.size + 1 := by
    rw [Table.length_keys]
    exact Nat.lt_succ_self _
  have listed (name : String) (_ : name = node.name ∨ Precedes node.name name)
      (isSome : (g.liveByName name).isSome = true) : name ∈ g.names.keys := by
    obtain ⟨id, found⟩ := Option.isSome_iff_exists.mp isSome
    exact (g.names.contains_iff_mem_keys name).mp
      ((g.names.contains_iff_get? name).mpr ⟨id, (liveByName_eq_some_iff.mp found).1⟩)
  obtain ⟨placed, more, placement, done⟩ := settle_places g room listed other
  have given : node.givenName = node.name := by rw [Node.givenName, first, Option.getD_none]
  refine ⟨placed, more, placement, ⟨?_, ?_, placement.free, fun former known => ?_, ?_⟩, done⟩
  · rw [placement.shape, named]
  · rw [placement.shape]
    exact inside
  · rcases placement.cases with rfl | ⟨remembered, taken, before⟩
    · rw [first] at known
      cases known
    · rw [remembered, given, Option.some_inj] at known
      exact ⟨known ▸ taken, before⟩
  · rcases placement.cases with rfl | ⟨-, -, before, isRenamed⟩
    · exact visible
    · rw [isRenamed]
      exact renamed_visible before

theorem register_cases {g g' : Graph} {node : Node} {id : NodeId} (intact : g.Intact)
    (named : node.shape.isNamed = true) (first : node.formerName = none)
    (inside : ∀ id ∈ node.shape.outgoing, id < g.nodes.size)
    (other : ∀ (id : NodeId) (taken : Node), g.nodes[id]? = some taken →
      sameUnion node.shape taken.shape = false) (done : g.register node = .ok (id, g')) :
    ∃ keyed g₁, Identified g node keyed g₁ ∧ ((g' = g₁ ∧ g.keys.get? keyed.key = some id) ∨
      ∃ placed more, let g₂ : Graph := { g₁ with findings := g₁.findings ++ more }
        g₁.Placement keyed placed ∧ g₂.Placed placed ∧ g' = (g₂.push placed).2 ∧
          id = g.nodes.size) := by
  obtain ⟨⟨keyed, g₁⟩, identified, done⟩ := ok_of_bind done
  obtain ⟨visible, known⟩ := identify_cases named identified
  have node_eq := known.node_eq
  have graph_eq := known.graph_eq
  have shape : keyed.shape = node.shape := by rw [node_eq]
  have former : keyed.formerName = none := by rw [node_eq, first]
  have name : keyed.name = node.name := by rw [node_eq]
  refine ⟨keyed, g₁, known, ?_⟩
  rw [graph_eq] at done ⊢
  dsimp only at done
  split at done
  · rename_i existing hit
    cases done
    have here : ({ g with issued := g₁.issued } : Graph).resolve existing = existing :=
      intact.resolve_eq existing
    rw [here]
    exact .inl ⟨rfl, hit⟩
  · have notPrimitive : keyed.shape.isPrimitive = false := by
      rw [shape]
      revert named
      cases node.shape <;> simp [Shape.isNamed, Shape.isPrimitive]
    rw [notPrimitive, if_neg Bool.false_ne_true] at done
    obtain ⟨placed, more, placement, isPlaced, settled⟩ :=
      @settle_placed { g with issued := g₁.issued } keyed (shape ▸ named) (name ▸ visible) former
        (shape ▸ inside) (shape ▸ other)
    rw [settled] at done
    cases done
    exact .inr ⟨placed, more, placement, isPlaced, rfl, rfl⟩

/-- Shapes of declarations and of types without names. -/
def Shape.isOrdinary : Shape → Bool
  | .primitive _ | .constants _ | .classUnion _ => false
  | _ => true

section ordinary
variable {s : Shape} (ordinary : s.isOrdinary = true)
include ordinary

theorem Shape.isNamed_of_isOrdinary : s.isNamed = true := by
  revert ordinary
  cases s <;> simp [isOrdinary, isNamed]

theorem Shape.ne_classUnion_of_isOrdinary (arity : Nat) : s ≠ .classUnion arity := by
  rintro rfl
  cases ordinary

theorem Shape.sameUnion_of_isOrdinary (other : Shape) : sameUnion s other = false := by
  cases s with
  | classUnion arity => cases ordinary
  | _ => rfl

end ordinary

theorem Intact.sameUnion_of_absent {g : Graph} (intact : g.Intact) {arity : Nat}
    (absent : g.unionBases.get? arity = none) (id : NodeId) (taken : Node)
    (there : g.nodes[id]? = some taken) : sameUnion (.classUnion arity) taken.shape = false := by
  cases shape : taken.shape with
  | classUnion own =>
    have known := intact.bases id taken own there shape
    rw [sameUnion, beq_eq_false_iff_ne]
    rintro rfl
    rw [Table.contains_eq_isSome, absent] at known
    cases known
  | _ => rfl

theorem unionBase_steps {g g' : Graph} {arity : Nat} {id : NodeId} (intact : g.Intact)
    (done : g.unionBase arity = .ok (id, g')) : Steps g g' ∧ id < g'.nodes.size := by
  rw [unionBase] at done
  split at done
  · rename_i existing known
    cases done
    refine ⟨.refl, ?_⟩
    rw [intact.resolve_eq]
    exact intact.unionBases _ _ known
  · rename_i absent
    obtain ⟨⟨base, g₁⟩, registered, done⟩ := ok_of_bind done
    cases done
    obtain ⟨keyed, g₁, identified, found | ⟨placed, more, placement, isPlaced, rfl, rfl⟩⟩ :=
      register_cases intact (by rfl) rfl (fun _ member => by cases member)
        (intact.sameUnion_of_absent absent) registered
    · obtain ⟨rfl, hit⟩ := found
      have lt := intact.keys _ _ hit
      rw [identified.graph_eq]
      exact ⟨.tail (.single (.note _ g.findings)) (.enlist arity lt), lt⟩
    · have shape : placed.shape = .classUnion arity := by rw [placement.shape, identified.node_eq]
      revert isPlaced
      rw [identified.graph_eq]
      intro isPlaced
      refine ⟨.tail (.single (.note _ _)) (.base isPlaced shape), ?_⟩
      simp [push, touch]

theorem primitive_steps {g : Graph} (intact : g.Intact) (kind : Primitive) :
    Steps g (g.primitive kind).2 ∧ (g.primitive kind).1 < (g.primitive kind).2.nodes.size := by
  rw [primitive]
  split
  · rename_i id known
    exact ⟨.refl, intact.primitives kind id known⟩
  · refine ⟨.single (.primitive kind), ?_⟩
    simp [push, touch]

theorem addConstant_first {g : Graph} (first : g.constants = none) (constant : Constant) :
    g.addConstant constant = (g.nodes.size,
      { (g.push (constantsOf constant)).2 with constants := some g.nodes.size }) := by
  have nodes (node : Node) (f : Node → Node) :
      (g.nodes.push node).modify g.nodes.size f = g.nodes.push (f node) := by
    refine Array.ext_getElem? fun id => ?_
    rw [Array.getElem?_modify, Array.getElem?_push, Array.getElem?_push]
    split_ifs with same last last
    · rfl
    · exact absurd same.symm last
    · exact absurd last.symm same
    · rfl
  rw [addConstant, constantsNode, first]
  dsimp only [push, touch, modifyNode]
  rw [nodes]
  rfl

theorem addConstant_steps {g : Graph} (intact : g.Intact) {constant : Constant}
    (inside : ∀ id ∈ constant.type.nodes, id < g.nodes.size) :
    Steps g (g.addConstant constant).2 ∧
      (g.addConstant constant).1 < (g.addConstant constant).2.nodes.size := by
  have reshapes : g.Reshapes (Shape.addConstant · constant) := by
    refine ⟨fun shape => ?_, fun _ => rfl, fun items empty => ?_, fun shape id member => ?_⟩
    · cases shape with
      | constants items =>
        dsimp only [Shape.addConstant]
        split <;> rfl
      | _ => rfl
    · dsimp only [Shape.addConstant] at empty
      split at empty
      · exact Shape.constants.inj empty
      · simp at empty
    · exact (Shape.mem_outgoing_addConstant member).imp_right (inside id)
  cases known : g.constants with
  | none =>
    rw [addConstant_first known]
    refine ⟨.single (.constants known inside), ?_⟩
    simp [push, touch]
  | some id =>
    have here : g.addConstant constant = (id, g.modifyShape id (Shape.addConstant · constant)) := by
      rw [addConstant, constantsNode, known, modifyShape]
      dsimp only
      rw [intact.resolve_eq]
    rw [here, modifyShape_size]
    exact ⟨.single (.reshape id reshapes), intact.constants id known⟩

end TypeLoom.Graph
