import Mathlib.Data.Finset.Card
import TypeLoom.Proofs.OmittedArguments

/-! Writing comes to an end, whatever the nodes refer to. A writer has two things with it that it
changes on its way: the nodes that it is inside of, and what is bound to type parameters. Here it
runs without any bound on its steps, and hands these two on from step to step. Every use has exactly
one outcome: the type that the lowering of a file takes, with both things as they were at the
beginning. -/
namespace TypeLoom.Code
open TypeLoom.Graph (Node Shape)

/-- The inside of a node, which is written after the node is entered. -/
inductive Inside where
  /-- An element with bindings of its own. -/
  | array (element : TypeUse) (own : Bindings)
  /-- Another node in the place of this one. -/
  | node (id : NodeId) (arguments : List TypeUse)
  | dictionary (key : IndexKey) (value : TypeUse)
  | tuple (elements : List TypeUse)
  /-- The default of a type parameter. -/
  | default (u : TypeUse)

inductive Manner where
  | keyword (kind : Primitive)
  | array (element : TypeUse) (generics : List Graph.Parameter)
  | inPlace (inside : Inside)
  /-- By the name of its declaration, with an argument for each type parameter. -/
  | byName (generics : List Graph.Parameter)

/-- How a node is written. The type parameters of a class union have neither names nor defaults. -/
def manner (node : Node) : Manner :=
  match node.flags.anonymous, node.shape with
  | _, .primitive kind => .keyword kind
  | _, .array element generics => .array element generics
  | _, .classUnionInstance base members => .inPlace (.node base members)
  | true, .dictionary key value _ => .inPlace (.dictionary key value)
  | true, .tuple elements _ => .inPlace (.tuple elements)
  | true, .instantiation base own _ => .inPlace (.node base own)
  | _, .classUnion arity => .byName (List.replicate arity ⟨"", none⟩)
  | _, shape => .byName shape.generics

/-- What a writer has with it: the nodes that it is inside of, and what is bound. -/
structure Frame where
  stack : List NodeId
  bound : Bindings

def Frame.enter (s : Frame) (id : NodeId) : Frame := { s with stack := id :: s.stack }
def Frame.leave (s : Frame) (id : NodeId) : Frame := { s with stack := s.stack.filter (· != id) }
def Frame.bind (s : Frame) (bound : Bindings) : Frame := { s with bound := bound }

mutual

/-- Write a use, from one frame to another. -/
inductive WritesUse (n : Naming) : Frame → TypeUse → TypeRef → Frame → Prop
  | generic {s : Frame} {name : String} {depth : Nat} {arguments : List TypeUse} :
      WritesUse n s ⟨.generic name, depth, arguments⟩ ((s.bound.value name).arrays depth) s
  | node {s s' : Frame} {id : NodeId} {depth : Nat} {arguments : List TypeUse} {type : TypeRef}
      (node : WritesNode n s id arguments type s') :
      WritesUse n s ⟨.node id, depth, arguments⟩ (type.arrays depth) s'

inductive WritesUses (n : Naming) : Frame → List TypeUse → List TypeRef → Frame → Prop
  | nil {s : Frame} : WritesUses n s [] [] s
  | cons {s s₁ s₂ : Frame} {u : TypeUse} {rest : List TypeUse} {type : TypeRef}
      {types : List TypeRef} (first : WritesUse n s u type s₁)
      (others : WritesUses n s₁ rest types s₂) :
      WritesUses n s (u :: rest) (type :: types) s₂

inductive WritesNode (n : Naming) : Frame → NodeId → List TypeUse → TypeRef → Frame → Prop
  | missing {s : Frame} {id : NodeId} {arguments : List TypeUse}
      (missing : n.graph.node? id = none) : WritesNode n s id arguments .object s
  | keyword {s : Frame} {id : NodeId} {arguments : List TypeUse} {node : Node} {kind : Primitive}
      (found : n.graph.node? id = some node) (isManner : manner node = .keyword kind) :
      WritesNode n s id arguments (primitiveType kind) s
  /-- The arguments are written before the node is entered. -/
  | array {s s₁ s₂ : Frame} {id : NodeId} {arguments : List TypeUse} {node : Node}
      {element : TypeUse} {generics : List Graph.Parameter} {types : List TypeRef} {type : TypeRef}
      (found : n.graph.node? id = some node) (isManner : manner node = .array element generics)
      (filled : WritesArguments n s (n.graph.resolve id) generics arguments types s₁)
      (inside : WritesGuarded n s₁ (n.graph.resolve id)
        (.array element (bindingsOf generics types)) type s₂) :
      WritesNode n s id arguments type s₂
  | inPlace {s s' : Frame} {id : NodeId} {arguments : List TypeUse} {node : Node} {inside : Inside}
      {type : TypeRef} (found : n.graph.node? id = some node)
      (isManner : manner node = .inPlace inside)
      (guarded : WritesGuarded n s (n.graph.resolve id) inside type s') :
      WritesNode n s id arguments type s'
  | unnamed {s : Frame} {id : NodeId} {arguments : List TypeUse} {node : Node}
      {generics : List Graph.Parameter} (found : n.graph.node? id = some node)
      (isManner : manner node = .byName generics)
      (isName : n.names.get? (n.graph.resolve id) = none) : WritesNode n s id arguments .object s
  | named {s s' : Frame} {id : NodeId} {arguments : List TypeUse} {node : Node}
      {generics : List Graph.Parameter} {name : String} {types : List TypeRef}
      (found : n.graph.node? id = some node) (isManner : manner node = .byName generics)
      (isName : n.names.get? (n.graph.resolve id) = some name)
      (filled : WritesArguments n s (n.graph.resolve id) generics arguments types s') :
      WritesNode n s id arguments (.named name types) s'

/-- Write the argument of each type parameter: the one given, or else the default, inside the node,
or else `object`. -/
inductive WritesArguments (n : Naming) :
    Frame → NodeId → List Graph.Parameter → List TypeUse → List TypeRef → Frame → Prop
  | nil {s : Frame} {id : NodeId} {given : List TypeUse} : WritesArguments n s id [] given [] s
  | given {s s₁ s₂ : Frame} {id : NodeId} {parameter : Graph.Parameter}
      {generics : List Graph.Parameter} {u : TypeUse} {given : List TypeUse} {type : TypeRef}
      {types : List TypeRef} (first : WritesUse n s u type s₁)
      (others : WritesArguments n s₁ id generics given types s₂) :
      WritesArguments n s id (parameter :: generics) (u :: given) (type :: types) s₂
  | default {s s₁ s₂ : Frame} {id : NodeId} {parameter : Graph.Parameter}
      {generics : List Graph.Parameter} {u : TypeUse} {type : TypeRef} {types : List TypeRef}
      (isDefault : parameter.default = some u) (first : WritesGuarded n s id (.default u) type s₁)
      (others : WritesArguments n s₁ id generics [] types s₂) :
      WritesArguments n s id (parameter :: generics) [] (type :: types) s₂
  | none {s s' : Frame} {id : NodeId} {parameter : Graph.Parameter}
      {generics : List Graph.Parameter} {types : List TypeRef}
      (isDefault : parameter.default = none)
      (others : WritesArguments n s id generics [] types s') :
      WritesArguments n s id (parameter :: generics) [] (.object :: types) s'

/-- Enter a node, write what is inside and leave it again; inside the node itself write `object`. -/
inductive WritesGuarded (n : Naming) : Frame → NodeId → Inside → TypeRef → Frame → Prop
  | again {s : Frame} {id : NodeId} {inside : Inside} (entered : id ∈ s.stack) :
      WritesGuarded n s id inside .object s
  | enter {s s' : Frame} {id : NodeId} {inside : Inside} {type : TypeRef} (outside : id ∉ s.stack)
      (written : WritesInside n (s.enter id) inside type s') :
      WritesGuarded n s id inside type (s'.leave id)

inductive WritesInside (n : Naming) : Frame → Inside → TypeRef → Frame → Prop
  /-- The bindings of the element are in the place of others for that time. -/
  | array {s s' : Frame} {element : TypeUse} {own : Bindings} {type : TypeRef}
      (written : WritesUse n (s.bind own) element type s') :
      WritesInside n s (.array element own) (.array type) (s'.bind s.bound)
  | node {s s' : Frame} {id : NodeId} {arguments : List TypeUse} {type : TypeRef}
      (written : WritesNode n s id arguments type s') :
      WritesInside n s (.node id arguments) type s'
  | dictionary {s s' : Frame} {key : IndexKey} {value : TypeUse} {type : TypeRef}
      (written : WritesUse n s value type s') :
      WritesInside n s (.dictionary key value) (.named "Dictionary" [keyType key, type]) s'
  | tuple {s s' : Frame} {elements : List TypeUse} {types : List TypeRef}
      (written : WritesUses n s elements types s') :
      WritesInside n s (.tuple elements) (.named "Tuple" types) s'
  | default {s s' : Frame} {u : TypeUse} {type : TypeRef} (written : WritesUse n s u type s') :
      WritesInside n s (.default u) type s'

end

def Inside.type (w : NodeWriter) (bound : Bindings) : Inside → TypeRef
  | .array element own => .array (w.use own element)
  | .node id arguments => w bound id (w.uses bound arguments)
  | .dictionary key value => .named "Dictionary" [keyType key, w.use bound value]
  | .tuple elements => .named "Tuple" (w.uses bound elements)
  | .default u => w.use bound u

/-- What is written for a node, `inside` writing the inside of the node. -/
def Manner.type (n : Naming) (inside : (NodeWriter → TypeRef) → TypeRef) (bound : Bindings)
    (id : NodeId) (given : List TypeRef) : Manner → TypeRef
  | .keyword kind => primitiveType kind
  | .array element generics =>
    let types :=
      argumentsFor (fun u => inside fun w => (Inside.default u).type w bound) generics given
    inside fun w => (Inside.array element (bindingsOf generics types)).type w bound
  | .inPlace body => inside fun w => body.type w bound
  | .byName generics =>
    let types :=
      argumentsFor (fun u => inside fun w => (Inside.default u).type w bound) generics given
    (n.names.get? id).elim .object fun name => .named name types

theorem argumentsFor_replicate (default : TypeUse → TypeRef) (arity : Nat) (given : List TypeRef) :
    argumentsFor default (List.replicate arity ⟨"", none⟩) given =
      (List.range arity).map fun i => (given[i]?).getD .object := by
  refine List.ext_getElem? fun i => ?_
  rw [getElem?_argumentsFor, List.getElem?_map, List.getElem?_replicate]
  by_cases within : i < arity
  · rw [if_pos within, List.getElem?_range within]
    rfl
  · have outside : (List.range arity)[i]? = none := by simpa using within
    rw [if_neg within, outside]
    rfl

theorem nodeTypeWith_manner {n : Naming} {id : NodeId} {node : Node}
    (found : n.graph.node? id = some node) (inside : NodeId → (NodeWriter → TypeRef) → TypeRef)
    (bound : Bindings) (given : List TypeRef) :
    nodeTypeWith n inside bound id given =
      (manner node).type n (inside (n.graph.resolve id)) bound (n.graph.resolve id) given := by
  rw [Graph.node?] at found
  rw [nodeTypeWith, manner]
  cases isName : n.names.get? (n.graph.resolve id) <;> simp only [found] <;>
    cases node.shape <;> cases node.flags.anonymous <;>
    simp [Manner.type, Inside.type, bindingsOf, isName, argumentsFor_replicate]

/-- The only outcome is this value, in this frame. -/
def Returns {α : Type} (outcome : α → Frame → Prop) (value : α) (s : Frame) : Prop :=
  ∀ value' s', outcome value' s' ↔ value' = value ∧ s' = s

theorem Returns.intro {α : Type} {outcome : α → Frame → Prop} {value : α} {s : Frame}
    (holds : outcome value s) (only : ∀ value' s', outcome value' s' → value' = value ∧ s' = s) :
    Returns outcome value s := by
  refine fun value' s' => ⟨only value' s', ?_⟩
  rintro ⟨rfl, rfl⟩
  exact holds

theorem Returns.holds {α : Type} {outcome : α → Frame → Prop} {value : α} {s : Frame}
    (returns : Returns outcome value s) : outcome value s := (returns value s).mpr ⟨rfl, rfl⟩

/-- Inside these nodes every use is written as the writer does, under any bindings. -/
def WritesAs (n : Naming) (stack : List NodeId) (w : NodeWriter) : Prop :=
  ∀ bound u, Returns (WritesUse n ⟨stack, bound⟩ u) (w.use bound u) ⟨stack, bound⟩

variable {n : Naming} {stack : List NodeId} {w : NodeWriter}

theorem Frame.leave_enter {s : Frame} {id : NodeId} (outside : id ∉ s.stack) :
    (s.enter id).leave id = s := by
  have others : s.stack.filter (· != id) = s.stack :=
    List.filter_eq_self.mpr fun other member => bne_iff_ne.mpr fun same => outside (same ▸ member)
  rw [enter, leave, List.filter_cons_of_neg (by simp), others]

theorem writesUses_returns {s : Frame} (uses : List TypeUse)
    (each : ∀ u ∈ uses, Returns (WritesUse n s u) (w.use s.bound u) s) :
    Returns (WritesUses n s uses) (w.uses s.bound uses) s := by
  induction uses with
  | nil =>
    refine .intro .nil fun types s' written => ?_
    cases written
    exact ⟨rfl, rfl⟩
  | cons u rest ih =>
    obtain ⟨head, tail⟩ := List.forall_mem_cons.mp each
    refine .intro (.cons head.holds (ih tail).holds) fun types s' written => ?_
    cases written with
    | cons first others =>
      obtain ⟨rfl, rfl⟩ := (head _ _).mp first
      obtain ⟨rfl, rfl⟩ := (ih tail _ _).mp others
      exact ⟨rfl, rfl⟩

theorem WritesAs.node (writes : WritesAs n stack w) (bound : Bindings) (id : NodeId)
    (arguments : List TypeUse) : Returns (WritesNode n ⟨stack, bound⟩ id arguments)
      (w bound id (w.uses bound arguments)) ⟨stack, bound⟩ := by
  have asUse := writes bound ⟨.node id, 0, arguments⟩
  refine .intro ?_ fun type s' written => (asUse type s').mp (.node written)
  cases asUse.holds with
  | node node => exact node

theorem WritesAs.inside (writes : WritesAs n stack w) (bound : Bindings) (inside : Inside) :
    Returns (WritesInside n ⟨stack, bound⟩ inside) (inside.type w bound) ⟨stack, bound⟩ := by
  cases inside with
  | array element own =>
    have alone := writes own element
    have whole : WritesInside n ⟨stack, bound⟩ (.array element own) _
        (Frame.bind ⟨stack, own⟩ bound) := .array alone.holds
    refine .intro whole fun type s' written => ?_
    cases written with
    | array written =>
      obtain ⟨rfl, rfl⟩ := (alone _ _).mp written
      exact ⟨rfl, rfl⟩
  | node id arguments =>
    have node := writes.node bound id arguments
    refine .intro (.node node.holds) fun type s' written => ?_
    cases written with
    | node written => exact (node _ _).mp written
  | dictionary key value =>
    have value := writes bound value
    refine .intro (.dictionary value.holds) fun type s' written => ?_
    cases written with
    | dictionary written =>
      obtain ⟨rfl, rfl⟩ := (value _ _).mp written
      exact ⟨rfl, rfl⟩
  | tuple elements =>
    have all := writesUses_returns elements fun u _ => writes bound u
    refine .intro (.tuple all.holds) fun type s' written => ?_
    cases written with
    | tuple written =>
      obtain ⟨rfl, rfl⟩ := (all _ _).mp written
      exact ⟨rfl, rfl⟩
  | default u =>
    have default := writes bound u
    refine .intro (.default default.holds) fun type s' written => ?_
    cases written with
    | default written => exact (default _ _).mp written

theorem writesGuarded_again {s : Frame} {id : NodeId} (entered : id ∈ s.stack) (inside : Inside) :
    Returns (WritesGuarded n s id inside) .object s := by
  refine .intro (.again entered) fun type s' written => ?_
  cases written with
  | again => exact ⟨rfl, rfl⟩
  | enter outside => exact absurd entered outside

theorem WritesAs.guarded {s : Frame} {id : NodeId} (writes : WritesAs n (id :: s.stack) w)
    (outside : id ∉ s.stack) (inside : Inside) :
    Returns (WritesGuarded n s id inside) (inside.type w s.bound) s := by
  have inside := writes.inside s.bound inside
  refine .intro ?_ fun type s' written => ?_
  · have left := WritesGuarded.enter outside inside.holds
    rwa [← Frame.enter, Frame.leave_enter outside] at left
  · cases written with
    | again entered => exact absurd entered outside
    | enter _ written =>
      obtain ⟨rfl, rfl⟩ := (inside _ _).mp written
      exact ⟨rfl, Frame.leave_enter outside⟩

theorem writesArguments_returns {s : Frame} {id : NodeId} {default : TypeUse → TypeRef}
    (defaults : ∀ u, Returns (WritesGuarded n s id (.default u)) (default u) s)
    (generics : List Graph.Parameter) (given : List TypeUse)
    (each : ∀ u ∈ given, Returns (WritesUse n s u) (w.use s.bound u) s) :
    Returns (WritesArguments n s id generics given)
      (argumentsFor default generics (w.uses s.bound given)) s := by
  induction generics generalizing given with
  | nil =>
    rw [argumentsFor]
    refine .intro .nil fun types s' written => ?_
    cases written
    exact ⟨rfl, rfl⟩
  | cons parameter rest ih =>
    cases given with
    | cons u given =>
      obtain ⟨head, tail⟩ := List.forall_mem_cons.mp each
      refine .intro (.given head.holds (ih given tail).holds) fun types s' written => ?_
      cases written with
      | given first others =>
        obtain ⟨rfl, rfl⟩ := (head _ _).mp first
        obtain ⟨rfl, rfl⟩ := (ih given tail _ _).mp others
        exact ⟨rfl, rfl⟩
    | nil =>
      have later := ih [] each
      rw [NodeWriter.uses, typeUses] at later ⊢
      rw [argumentsFor]
      cases isDefault : parameter.default with
      | none =>
        refine .intro (.none isDefault later.holds) fun types s' written => ?_
        cases written with
        | default other => cases isDefault.symm.trans other
        | none _ others =>
          obtain ⟨rfl, rfl⟩ := (later _ _).mp others
          exact ⟨rfl, rfl⟩
      | some u =>
        refine .intro (.default isDefault (defaults u).holds later.holds) fun types s' written => ?_
        cases written with
        | none other => cases isDefault.symm.trans other
        | default same first others =>
          obtain rfl := Option.some.inj (isDefault.symm.trans same)
          obtain ⟨rfl, rfl⟩ := (defaults _ _ _).mp first
          obtain ⟨rfl, rfl⟩ := (later _ _).mp others
          exact ⟨rfl, rfl⟩

/-- The inside of every node is written like this. -/
def GuardsAs (n : Naming) (stack : List NodeId)
    (inside : NodeId → (NodeWriter → TypeRef) → TypeRef) : Prop :=
  ∀ id node, n.graph.node? id = some node → ∀ bound (body : Inside),
    Returns (WritesGuarded n ⟨stack, bound⟩ (n.graph.resolve id) body)
      (inside (n.graph.resolve id) fun w => body.type w bound) ⟨stack, bound⟩

variable {inside : NodeId → (NodeWriter → TypeRef) → TypeRef}

theorem writesNode_returns (guarded : GuardsAs n stack inside) {bound : Bindings} (id : NodeId)
    {arguments : List TypeUse}
    (each : ∀ u ∈ arguments,
      Returns (WritesUse n ⟨stack, bound⟩ u) (w.use bound u) ⟨stack, bound⟩) :
    Returns (WritesNode n ⟨stack, bound⟩ id arguments)
      (nodeTypeWith n inside bound id (w.uses bound arguments)) ⟨stack, bound⟩ := by
  have filled {node : Node} (found : n.graph.node? id = some node)
      (generics : List Graph.Parameter) :=
    writesArguments_returns (fun u => guarded id node found bound (.default u)) generics arguments
      each
  refine .intro ?_ fun type s' written => ?_
  · cases found : n.graph.node? id with
    | none =>
      rw [nodeTypeWith_of_none found]
      exact .missing found
    | some node =>
      rw [nodeTypeWith_manner found]
      cases isManner : manner node with
      | keyword kind => exact .keyword found isManner
      | array element generics =>
        exact .array found isManner (filled found generics).holds (guarded _ _ found _ _).holds
      | inPlace body => exact .inPlace found isManner (guarded _ _ found _ _).holds
      | byName generics =>
        rw [Manner.type]
        cases isName : n.names.get? (n.graph.resolve id) with
        | none => exact .unnamed found isManner isName
        | some name => exact .named found isManner isName (filled found generics).holds
  · cases written with
    | missing missing =>
      rw [nodeTypeWith_of_none missing]
      exact ⟨rfl, rfl⟩
    | keyword found isManner =>
      rw [nodeTypeWith_manner found, isManner]
      exact ⟨rfl, rfl⟩
    | array found isManner given body =>
      rw [nodeTypeWith_manner found, isManner]
      obtain ⟨rfl, rfl⟩ := (filled found _ _ _).mp given
      exact (guarded _ _ found _ _ _ _).mp body
    | inPlace found isManner body =>
      rw [nodeTypeWith_manner found, isManner]
      exact (guarded _ _ found _ _ _ _).mp body
    | unnamed found isManner isName =>
      rw [nodeTypeWith_manner found, isManner, Manner.type, isName]
      exact ⟨rfl, rfl⟩
    | named found isManner isName given =>
      rw [nodeTypeWith_manner found, isManner, Manner.type, isName]
      obtain ⟨rfl, rfl⟩ := (filled found _ _ _).mp given
      exact ⟨rfl, rfl⟩

mutual

theorem writesUse_returns (guarded : GuardsAs n stack inside) (bound : Bindings) : (u : TypeUse) →
    Returns (WritesUse n ⟨stack, bound⟩ u) (NodeWriter.use (nodeTypeWith n inside) bound u)
      ⟨stack, bound⟩
  | ⟨.generic name, depth, arguments⟩ => by
    rw [NodeWriter.use, typeUse]
    refine .intro .generic fun type s' written => ?_
    cases written
    exact ⟨rfl, rfl⟩
  | ⟨.node id, depth, arguments⟩ => by
    have node := writesNode_returns guarded id (writesUse_returns_of_mem guarded bound arguments)
    rw [NodeWriter.use, typeUse]
    refine .intro (.node node.holds) fun type s' written => ?_
    cases written with
    | node written =>
      obtain ⟨rfl, rfl⟩ := (node _ _).mp written
      exact ⟨rfl, rfl⟩

theorem writesUse_returns_of_mem (guarded : GuardsAs n stack inside) (bound : Bindings) :
    (uses : List TypeUse) → ∀ u ∈ uses,
      Returns (WritesUse n ⟨stack, bound⟩ u) (NodeWriter.use (nodeTypeWith n inside) bound u)
        ⟨stack, bound⟩
  | [] => by simp
  | u :: rest => List.forall_mem_cons.mpr
      ⟨writesUse_returns guarded bound u, writesUse_returns_of_mem guarded bound rest⟩

end

/-- Nodes that can still be entered. -/
def Naming.free (n : Naming) (stack : List NodeId) : Finset NodeId :=
  (Finset.range n.graph.nodes.size).filter (· ∉ stack)

theorem Naming.card_free_le (n : Naming) (stack : List NodeId) :
    (n.free stack).card ≤ n.graph.nodes.size := by
  simpa [free] using Finset.card_filter_le (Finset.range n.graph.nodes.size) (· ∉ stack)

theorem Naming.card_free_cons {id : NodeId} {node : Node} (found : n.graph.node? id = some node)
    (outside : n.graph.resolve id ∉ stack) :
    (n.free (n.graph.resolve id :: stack)).card < (n.free stack).card := by
  have present : n.graph.resolve id ∈ n.free stack :=
    Finset.mem_filter.mpr
      ⟨Finset.mem_range.mpr (Array.getElem?_eq_some_iff.mp found).1, outside⟩
  refine Finset.card_lt_card ⟨fun other member => ?_, fun subset => ?_⟩
  · simp only [free, Finset.mem_filter, List.mem_cons, not_or] at member ⊢
    exact ⟨member.1, member.2.2⟩
  · simpa [free] using subset present

/-- With a level for each node that can still be entered, the level makes no difference. The level
counts the nodes, and at each level the uses are smaller and smaller. -/
theorem writesAs_nodeType {level : Nat} {stack : List NodeId}
    (enough : (n.free stack).card ≤ level) : WritesAs n stack (nodeType n level stack) := by
  induction level generalizing stack with
  | zero =>
    refine fun bound u => writesUse_returns (fun id node found bound body => ?_) bound u
    -- Nothing is left to be entered.
    have entered : n.graph.resolve id ∈ stack := by
      by_contra outside
      have fewer := Naming.card_free_cons found outside
      omega
    exact writesGuarded_again entered body
  | succ level ih =>
    refine fun bound u => writesUse_returns (fun id node found bound body => ?_) bound u
    by_cases entered : n.graph.resolve id ∈ stack
    · rw [if_pos (List.contains_iff_mem.mpr entered)]
      exact writesGuarded_again entered body
    · rw [if_neg (entered ∘ List.contains_iff_mem.mp)]
      have fewer := Naming.card_free_cons found entered
      have deeper : WritesAs n (n.graph.resolve id :: stack) _ := ih (by omega)
      exact deeper.guarded entered body

def Frame.writer (s : Frame) (n : Naming) : NodeWriter :=
  nodeType n n.graph.nodes.size s.stack

theorem Frame.writesAs (s : Frame) (n : Naming) : WritesAs n s.stack (s.writer n) :=
  writesAs_nodeType (n.card_free_le s.stack)

theorem writesGuarded_returns (n : Naming) (s : Frame) (id : NodeId) (inside : Inside) :
    Returns (WritesGuarded n s id inside)
      (if id ∈ s.stack then .object else inside.type ((s.enter id).writer n) s.bound) s := by
  by_cases entered : id ∈ s.stack
  · rw [if_pos entered]
    exact writesGuarded_again entered inside
  · rw [if_neg entered]
    exact ((s.enter id).writesAs n).guarded entered inside

theorem writesArguments_returns_writer (n : Naming) (s : Frame) (id : NodeId)
    (generics : List Graph.Parameter) (given : List TypeUse) :
    Returns (WritesArguments n s id generics given)
      (argumentsFor
        (fun u => if id ∈ s.stack then .object else ((s.enter id).writer n).use s.bound u) generics
        ((s.writer n).uses s.bound given)) s :=
  writesArguments_returns (fun u => writesGuarded_returns n s id (.default u)) generics given
    fun u _ => s.writesAs n s.bound u

/-- In every frame and for whatever nodes there are, writing comes to an end, with one outcome:
uses, nodes, the inside of nodes and arguments are written as the lowering of files writes them, and
the nodes that one is inside of and the bindings are at the end what they were. -/
theorem writes_once (n : Naming) (s : Frame) :
    (∀ u, Returns (WritesUse n s u) ((s.writer n).use s.bound u) s) ∧
    (∀ id arguments, Returns (WritesNode n s id arguments)
      (s.writer n s.bound id ((s.writer n).uses s.bound arguments)) s) ∧
    (∀ id inside, Returns (WritesGuarded n s id inside)
      (if id ∈ s.stack then .object else inside.type ((s.enter id).writer n) s.bound) s) ∧
    (∀ id generics given, Returns (WritesArguments n s id generics given)
      (argumentsFor
        (fun u => if id ∈ s.stack then .object else ((s.enter id).writer n).use s.bound u) generics
        ((s.writer n).uses s.bound given)) s) ∧
    ∀ u, Returns (WritesUse n ⟨[], []⟩ u) (n.use u) ⟨[], []⟩ :=
  ⟨s.writesAs n s.bound, (s.writesAs n).node s.bound, writesGuarded_returns n s,
    writesArguments_returns_writer n s, Frame.writesAs ⟨[], []⟩ n []⟩

end TypeLoom.Code
