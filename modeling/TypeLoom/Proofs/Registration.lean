import TypeLoom.Graph.Query
import TypeLoom.Proofs.Encoding
import TypeLoom.Proofs.Operations

/-! Registration under issued keys. A node that comes without an origin gets one that no node had
before, so it is always appended as a node of its own; the nodes that are there stay as they are.
The exception are the bases of class unions, of which one may take the place of another. -/
namespace TypeLoom.Graph

/-- The key of a node of this name with the `n`-th issued origin. -/
def issuedKey (name : String) (n : Nat) : String := name ++ "#" ++ ("synthetic-" ++ toString n)

theorem issuedKey_inj {a b : String} {m n : Nat} (same : issuedKey a m = issuedKey b n) :
    m = n := by
  have without : ∀ k : Nat, '#' ∉ ("synthetic-" ++ toString k).toList := by
    intro k
    rw [String.toList_append, List.mem_append, not_or]
    exact ⟨by decide, (unseparated_toString k).1⟩
  have chars : a.toList ++ '#' :: ("synthetic-" ++ toString m).toList =
      b.toList ++ '#' :: ("synthetic-" ++ toString n).toList := by
    simpa [issuedKey] using congrArg String.toList same
  obtain ⟨-, origins⟩ := append_inj_of_last (without m) (without n) chars
  rw [String.toList_append, String.toList_append, List.append_cancel_left_eq] at origins
  exact toString_inj (String.toList_inj.mp origins)

/-- A key that will not be issued any more. -/
def Spent (g : Graph) (key : String) : Prop := ∀ name n, g.issued < n → key ≠ issuedKey name n

theorem spent_issuedKey (g : Graph) (name : String) : Spent g (issuedKey name g.issued) := by
  intro other n later same
  exact later.ne (issuedKey_inj same)

theorem spent_label (g : Graph) (kind : Primitive) : Spent g kind.label := by
  intro name n _ same
  have separated : '#' ∈ (issuedKey name n).toList := by simp [issuedKey]
  rw [← same] at separated
  revert separated
  cases kind <;> decide

/-- Keys in use are spent, and only bases of class unions have been replaced. -/
structure Tidy (g : Graph) : Prop where
  keys : ∀ key id, g.keys.get? key = some id → Spent g key
  nodeKeys : ∀ (id : NodeId) (node : Node), g.nodes[id]? = some node → Spent g node.key
  redirects : ∀ old new, g.redirects.get? old = some new →
    ∃ node arity, g.nodes[old]? = some node ∧ node.shape = .classUnion arity

theorem Spent.mono {g g' : Graph} {key : String} (spent : Spent g key)
    (later : g.issued ≤ g'.issued) :
    Spent g' key := fun name n more => spent name n (later.trans_lt more)

/-- Nodes have been appended, and nothing has happened to the others. -/
structure Adds (g g' : Graph) : Prop where
  tidy : g.Tidy → g'.Tidy
  size : g.nodes.size ≤ g'.nodes.size
  nodes : ∀ id < g.nodes.size, g'.nodes[id]? = g.nodes[id]?

namespace Adds
variable {g g' g'' : Graph}

theorem refl (g : Graph) : Adds g g := ⟨id, le_rfl, fun _ _ => rfl⟩

theorem trans (first : Adds g g') (second : Adds g' g'') : Adds g g'' where
  tidy := second.tidy ∘ first.tidy
  size := first.size.trans second.size
  nodes id lt := (second.nodes id (lt.trans_le first.size)).trans (first.nodes id lt)

end Adds

theorem report_adds (g : Graph) (kind : Finding.Kind) (subject message : String) :
    Adds g (g.report kind subject message) :=
  ⟨fun tidy => ⟨tidy.keys, tidy.nodeKeys, tidy.redirects⟩, le_rfl, fun _ _ => rfl⟩

theorem push_nodes (g : Graph) (node : Node) : (g.push node).2.nodes = g.nodes.push node := rfl

theorem push_adds (g : Graph) (node : Node) (spent : Spent g node.key) :
    Adds g (g.push node).2 where
  tidy tidy := by
    refine ⟨fun key id found => ?_, fun id other found => ?_, fun old new found => ?_⟩
    · have inserted : (g.push node).2.keys = g.keys.insert node.key g.nodes.size := rfl
      rw [inserted, Table.get?_insert] at found
      split_ifs at found with same
      · exact same ▸ spent
      · exact tidy.keys key id found
    · rw [push_nodes, Array.getElem?_push] at found
      split_ifs at found with last
      · cases found
        exact spent
      · exact tidy.nodeKeys id other found
    · obtain ⟨before, arity, there, shape⟩ := tidy.redirects old new found
      refine ⟨before, arity, ?_, shape⟩
      have lt := (Array.getElem?_eq_some_iff.mp there).1
      rw [push_nodes, Array.getElem?_push, if_neg lt.ne]
      exact there
  size := by simp [push_nodes]
  nodes id lt := by rw [push_nodes, Array.getElem?_push, if_neg lt.ne]

theorem supplant_adds (g : Graph) {old : NodeId} {node before : Node} {arity : Nat}
    (spent : Spent g node.key) (found : g.nodes[old]? = some before)
    (shape : before.shape = .classUnion arity) : Adds g (g.supplant old node).2 := by
  have named : Adds g (g.freeName old before.name) := by
    rw [freeName]
    split_ifs
    · exact ⟨fun tidy => ⟨tidy.keys, tidy.nodeKeys, tidy.redirects⟩, le_rfl, fun _ _ => rfl⟩
    · exact .refl g
  have issued : (g.freeName old before.name).issued = g.issued := by
    rw [freeName]
    split_ifs <;> rfl
  have pushed := named.trans (push_adds _ node (spent.mono issued.ge))
  have still : ((g.freeName old before.name).push node).2.issued = g.issued := issued
  rw [supplant, found]
  dsimp only
  generalize (g.freeName old before.name).push node = pair at pushed still ⊢
  refine ⟨fun tidy => ?_, pushed.size, pushed.nodes⟩
  have after := pushed.tidy tidy
  have kept : pair.2.nodes[old]? = some before :=
    (pushed.nodes old (Array.getElem?_eq_some_iff.mp found).1).trans found
  refine ⟨fun key id hit => ?_, after.nodeKeys, fun retired new hit => ?_⟩
  · simp only [forgetDigests, Table.get?_insert] at hit
    split_ifs at hit with same
    · exact same ▸ (tidy.nodeKeys old before found).mono still.ge
    · exact after.keys key id hit
  · simp only [forgetDigests, Table.get?_insert] at hit
    split_ifs at hit with same
    · exact ⟨before, arity, same ▸ kept, shape⟩
    · exact after.redirects retired new hit

theorem sameUnion_right {s t : Shape} (same : sameUnion s t = true) :
    ∃ arity, t = .classUnion arity := by
  cases s <;> cases t <;> simp [sameUnion] at same ⊢

theorem settle_adds (g : Graph) (steps : Nat) {node : Node} (spent : Spent g node.key) :
    Adds g (settle steps g node).2 := by
  induction steps generalizing g node with
  | zero => exact push_adds g node spent
  | succ steps ih =>
    rw [settle]
    cases g.liveByName node.name with
    | none => exact push_adds g node spent
    | some other =>
      dsimp only
      cases found : g.nodes[other]? with
      | none => exact push_adds g node spent
      | some taken =>
        dsimp only
        split_ifs with union better
        · obtain ⟨arity, shape⟩ := sameUnion_right union
          exact supplant_adds g spent found shape
        · refine ⟨fun tidy => ⟨fun key id hit => ?_, tidy.nodeKeys, tidy.redirects⟩, le_rfl,
            fun _ _ => rfl⟩
          simp only [Table.get?_insert] at hit
          split_ifs at hit with same
          · exact same ▸ spent
          · exact tidy.keys key id hit
        · refine (report_adds g _ _ _).trans (ih _ ?_)
          exact spent

def Node.givenName (n : Node) : String := n.formerName.getD n.name

theorem Node.isCalled_givenName (n : Node) : n.isCalled n.givenName = true := by
  rw [isCalled, givenName]
  cases n.formerName <;> simp

theorem settle_fresh (g : Graph) (steps : Nat) {node : Node}
    (other : ∀ shape, sameUnion node.shape shape = false) :
    ∃ placed : Node, placed.shape = node.shape ∧ placed.givenName = node.givenName ∧
      (settle steps g node).1 = g.nodes.size ∧
      (settle steps g node).2.nodes = g.nodes.push placed := by
  induction steps generalizing g node with
  | zero => exact ⟨node, rfl, rfl, rfl, rfl⟩
  | succ steps ih =>
    rw [settle]
    cases g.liveByName node.name with
    | none => exact ⟨node, rfl, rfl, rfl, rfl⟩
    | some taken =>
      dsimp only
      cases g.nodes[taken]? with
      | none => exact ⟨node, rfl, rfl, rfl, rfl⟩
      | some before =>
        dsimp only
        rw [other before.shape, if_neg Bool.false_ne_true]
        exact @ih _ { node with
          name := renamed node, formerName := some (node.formerName.getD node.name) } other

/-- Shapes that are identified by name and origin. -/
def Shape.isNamed : Shape → Bool
  | .primitive _ | .constants _ => false
  | _ => true

theorem identify_issued (g : Graph) {node : Node} (named : node.shape.isNamed = true)
    (name : Text.isBlankText node.name.toList = false) (origin : node.origin = none) :
    ∃ node', g.identify node = .ok (node', { g with issued := g.issued + 1 }) ∧
      node'.shape = node.shape ∧ node'.givenName = node.givenName ∧
        node'.key = issuedKey node.name (g.issued + 1) := by
  rw [identify]
  split
  · rename_i shape
    rw [shape] at named
    cases named
  · rename_i shape
    rw [shape] at named
    cases named
  · rw [name, if_neg Bool.false_ne_true, origin]
    exact ⟨_, rfl, rfl, rfl, rfl⟩

theorem issue_adds (g : Graph) : Adds g { g with issued := g.issued + 1 } where
  tidy tidy := ⟨fun key id hit => (tidy.keys key id hit).mono (Nat.le_succ _),
    fun id node found => (tidy.nodeKeys id node found).mono (Nat.le_succ _), tidy.redirects⟩
  size := le_rfl
  nodes _ _ := rfl

section register
variable {g : Graph} (tidy : g.Tidy) {node : Node} (named : node.shape.isNamed = true)
  (name : Text.isBlankText node.name.toList = false) (origin : node.origin = none)
include tidy named name origin

/-- The issued key is new, so registration goes on to find a display name. -/
theorem register_settles : ∃ (g₁ : Graph) (node' : Node) (steps : Nat),
    g.register node = .ok (settle steps g₁ node') ∧ Adds g g₁ ∧ g₁.nodes = g.nodes ∧
      node'.shape = node.shape ∧ node'.givenName = node.givenName ∧ Spent g₁ node'.key := by
  obtain ⟨node', identified, shape, given, key⟩ := identify_issued g named name origin
  let g₁ : Graph := { g with issued := g.issued + 1 }
  have fresh : g₁.keys.get? node'.key = none := by
    rw [Option.eq_none_iff_forall_ne_some]
    intro id hit
    exact tidy.keys _ id hit node.name (g.issued + 1) (Nat.lt_succ_self _) key
  have notPrimitive : node'.shape.isPrimitive = false := by
    rw [shape]
    revert named
    cases node.shape <;> simp [Shape.isNamed, Shape.isPrimitive]
  refine ⟨g₁, node', g₁.names.size + 1, ?_, issue_adds g, rfl, shape, given,
    key ▸ spent_issuedKey g₁ node.name⟩
  rw [register, identified]
  simp only [bind, Except.bind]
  rw [fresh, notPrimitive]
  rfl

theorem register_adds : ∃ id g', g.register node = .ok (id, g') ∧ Adds g g' := by
  obtain ⟨g₁, node', steps, done, adds, -, -, -, spent⟩ := register_settles tidy named name origin
  exact ⟨_, _, done, adds.trans (settle_adds g₁ steps spent)⟩

theorem register_fresh (other : ∀ shape, sameUnion node.shape shape = false) :
    ∃ g' placed, g.register node = .ok (g.nodes.size, g') ∧ Adds g g' ∧
      g'.nodes = g.nodes.push placed ∧ placed.shape = node.shape ∧
        placed.givenName = node.givenName := by
  obtain ⟨g₁, node', steps, done, adds, same, shape, given, spent⟩ :=
    register_settles tidy named name origin
  obtain ⟨placed, shape', given', id, nodes⟩ := settle_fresh g₁ steps (shape ▸ other)
  rw [same] at id nodes
  refine ⟨_, placed, ?_, adds.trans (settle_adds g₁ steps spent), nodes, shape'.trans shape,
    given'.trans given⟩
  rw [done, ← id]

end register

theorem primitive_adds (g : Graph) (kind : Primitive) : Adds g (g.primitive kind).2 := by
  rw [primitive]
  split
  · exact .refl g
  · have pushed := push_adds g { name := kind.label, key := kind.label, shape := .primitive kind }
      (spent_label g kind)
    exact ⟨fun tidy =>
      ⟨(pushed.tidy tidy).keys, (pushed.tidy tidy).nodeKeys, (pushed.tidy tidy).redirects⟩,
      pushed.size, pushed.nodes⟩

theorem isBlankText_append (s t : String) : Text.isBlankText (s ++ t).toList =
    (Text.isBlankText s.toList && Text.isBlankText t.toList) := by
  rw [Text.isBlankText, String.toList_append, List.all_append]
  rfl

theorem unionBase_adds {g : Graph} (tidy : g.Tidy) (arity : Nat) :
    ∃ id g', g.unionBase arity = .ok (id, g') ∧ Adds g g' := by
  rw [unionBase]
  split
  · exact ⟨_, g, rfl, .refl g⟩
  · have name : Text.isBlankText (unionName arity).toList = false := by
      rw [unionName, isBlankText_append]
      rfl
    obtain ⟨id, g', done, adds⟩ := @register_adds g tidy
      { name := unionName arity, shape := .classUnion arity, flags := { internal := true } }
      rfl name rfl
    rw [done]
    exact ⟨id, _, rfl, fun tidy => ⟨(adds.tidy tidy).keys, (adds.tidy tidy).nodeKeys,
      (adds.tidy tidy).redirects⟩, adds.size, adds.nodes⟩

theorem findUnion_adds (g : Graph) (member : String) (hint : Option String) :
    Adds g (g.findUnion member hint).2 := by
  rw [findUnion]
  dsimp only
  split
  · exact .refl g
  · exact .refl g
  · exact .refl g
  · exact report_adds g _ _ _

theorem Shape.label_eq_classUnion {shape other : Shape} {arity : Nat}
    (same : shape.label = other.label)
    (union : other = .classUnion arity) : ∃ arity, shape = .classUnion arity := by
  subst union
  cases shape with
  | classUnion arity => exact ⟨arity, rfl⟩
  | _ => simp [Shape.label] at same

section modifyShape
variable {g : Graph} (tidy : g.Tidy) {id : NodeId} {node : Node} (there : g.nodes[id]? = some node)
  (solid : ∀ arity, node.shape ≠ .classUnion arity)
include tidy there solid

theorem Tidy.no_redirect : g.redirects.get? id = none := by
  rw [Option.eq_none_iff_forall_ne_some]
  intro new found
  obtain ⟨before, arity, there', union⟩ := tidy.redirects id new found
  rw [there, Option.some_inj] at there'
  exact solid arity (there' ▸ union)

theorem Tidy.isLive : g.isLive id = true :=
  (g.isLive_iff id).mpr ⟨(Array.getElem?_eq_some_iff.mp there).1, tidy.no_redirect there solid⟩

theorem modifyShape_nodes (f : Shape → Shape) (other : NodeId) :
    (g.modifyShape id f).nodes[other]? =
    if id = other then some { node with shape := f node.shape } else g.nodes[other]? := by
  have here : g.resolve id = id := resolve_of_end (tidy.no_redirect there solid)
  have nodes : (g.modifyShape id f).nodes =
      g.nodes.modify (g.resolve id) fun n => { n with shape := f n.shape } := rfl
  rw [nodes, here, Array.getElem?_modify]
  split_ifs with same
  · rw [← same, there]
    rfl
  · rfl

end modifyShape

theorem modifyShape_tidy {g : Graph} (tidy : g.Tidy) (id : NodeId) {f : Shape → Shape}
    (label : ∀ shape, (f shape).label = shape.label) : (g.modifyShape id f).Tidy := by
  have nodes : (g.modifyShape id f).nodes =
      g.nodes.modify (g.resolve id) fun n => { n with shape := f n.shape } := rfl
  refine ⟨tidy.keys, fun other node found => ?_, fun old new found => ?_⟩
  · rw [nodes, Array.getElem?_modify] at found
    split_ifs at found
    · obtain ⟨before, there, rfl⟩ := Option.map_eq_some_iff.mp found
      exact tidy.nodeKeys other before there
    · exact tidy.nodeKeys other node found
  · obtain ⟨before, arity, there, union⟩ := tidy.redirects old new found
    rw [nodes, Array.getElem?_modify, there]
    split_ifs
    · obtain ⟨arity', union'⟩ := Shape.label_eq_classUnion (label before.shape) union
      exact ⟨_, arity', rfl, union'⟩
    · exact ⟨before, arity, rfl, union⟩

end TypeLoom.Graph
