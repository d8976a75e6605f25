import TypeLoom.Proofs.Growth
import TypeLoom.Proofs.TypeUses

/-! What an ingest does, move by move. Nodes of inline types come complete. A record is opened, gets
its properties one after the other and is closed; the records under construction form a stack. Every
move keeps what was there: nodes only grow, inline nodes stay as they are, and a declaration that
has been built stays built. What moves do to a graph are chains of the steps of `Graph.Step`. -/
namespace TypeLoom

namespace Graph

/-! ### Shapes that grow -/

/-- Shapes that are written in place if their node has no name of its own. -/
def Shape.isInline : Shape → Bool
  | .dictionary .. | .tuple .. | .classUnionInstance .. => true
  | _ => false

/-- A type without a name that is written where it is used. -/
def Node.isInline (n : Node) : Bool := n.flags.anonymous && n.shape.isInline

def Shape.parameterNames (s : Shape) : List String := s.generics.map Parameter.name

/-- A shape and what it may have become after additions. -/
structure Shape.Grows (s s' : Shape) : Prop where
  label : s'.label = s.label
  properties : s.properties ⊆ s'.properties
  generics : s.parameterNames ⊆ s'.parameterNames

section shapes
variable {s t : Shape}

theorem Shape.isInline_of_label (same : s.label = t.label) : s.isInline = t.isInline := by
  cases s <;> cases t <;> simp [label, isInline] at same ⊢

theorem Shape.isOrdinary_of_label (same : s.label = t.label) : s.isOrdinary = t.isOrdinary := by
  cases s <;> cases t <;> simp [label, isOrdinary] at same ⊢

theorem Shape.isRecord_of_label (same : s.label = t.label) : s.isRecord = t.isRecord := by
  cases s <;> cases t <;> simp [label, isRecord] at same ⊢

theorem Shape.isOrdinary_of_isInline (inline : s.isInline = true) : s.isOrdinary = true := by
  revert inline
  cases s <;> simp [isInline, isOrdinary]

theorem Shape.isRecord_of_mem {property : Property} (inside : property ∈ s.properties) :
    s.isRecord = true := by
  cases s with
  | record properties generics => rfl
  | _ => cases inside

theorem Shape.Grows.refl (s : Shape) : s.Grows s :=
  ⟨rfl, List.Subset.refl _, List.Subset.refl _⟩

theorem Shape.Grows.trans {u : Shape} (first : s.Grows t) (second : t.Grows u) : s.Grows u where
  label := second.label.trans first.label
  properties := List.Subset.trans first.properties second.properties
  generics := List.Subset.trans first.generics second.generics

theorem Shape.grows_addProperty (s : Shape) (property : Property) :
    s.Grows (s.addProperty property) := by
  cases s with
  | record properties generics =>
    dsimp only [addProperty]
    split
    · exact .refl _
    · exact ⟨rfl, List.subset_append_left _ _, List.Subset.refl _⟩
  | _ => exact .refl _

theorem Shape.grows_addParameter (s : Shape) (parameter : Parameter) :
    s.Grows (s.addParameter parameter) := by
  rw [addParameter]
  split
  · exact .refl s
  · cases s <;> simp [withGenerics, Shape.generics, Grows.refl] <;>
      exact ⟨rfl, List.Subset.refl _, by simp [parameterNames, Shape.generics]⟩

theorem Shape.grows_addConstant (s : Shape) (constant : Constant) :
    s.Grows (s.addConstant constant) := by
  cases s with
  | constants items =>
    dsimp only [addConstant]
    split
    · exact .refl _
    · exact ⟨rfl, List.Subset.refl _, List.Subset.refl _⟩
  | _ => exact .refl _

theorem Shape.grows_setDictionaryValue (s : Shape) (value : TypeUse) :
    s.Grows (Ingest.setDictionaryValue value s) := by
  cases s with
  | dictionary key old generics => exact ⟨rfl, List.Subset.refl _, List.Subset.refl _⟩
  | _ => exact .refl _

end shapes

/-! ### Occurrences of type parameters -/

/-- A type parameter occurs in a type use: directly, or in an inline node that is reached through
inline nodes only. -/
inductive Occurs (g : Graph) (name : String) : TypeUse → Prop
  | direct {u : TypeUse} (mentions : u.mentions name = true) : Occurs g name u
  | inside {u v : TypeUse} {id : NodeId} {node : Node} (named : id ∈ u.nodes)
      (found : g.nodes[id]? = some node) (inline : node.isInline = true)
      (own : v ∈ node.shape.ownUses) (occurs : Occurs g name v) : Occurs g name u

section occurs
variable {g : Graph} {name : String}

theorem anyMentions_iff {uses : List TypeUse} :
    TypeUse.anyMentions name uses = true ↔ ∃ u ∈ uses, u.mentions name = true := by
  induction uses with
  | nil => simp [TypeUse.anyMentions]
  | cons u rest ih => simp [TypeUse.anyMentions, ih]

theorem Occurs.node_cases {id : NodeId} {depth : Nat} {arguments : List TypeUse}
    (occurs : Occurs g name ⟨.node id, depth, arguments⟩) :
    Occurs g name (.ofNode id) ∨ ∃ u ∈ arguments, Occurs g name u := by
  cases occurs with
  | direct mentions =>
    rw [TypeUse.mentions, anyMentions_iff] at mentions
    obtain ⟨u, inside, mentions⟩ := mentions
    exact .inr ⟨u, inside, .direct mentions⟩
  | inside named found inline own occurs =>
    rw [TypeUse.nodes, List.mem_cons, TypeUse.nodesOfAll_eq, List.mem_flatMap] at named
    obtain rfl | ⟨u, inside, named⟩ := named
    · refine .inl (.inside ?_ found inline own occurs)
      simp [TypeUse.ofNode, TypeUse.nodes]
    · exact .inr ⟨u, inside, .inside named found inline own occurs⟩

theorem Occurs.of_node {id : NodeId} (occurs : Occurs g name (.ofNode id)) :
    ∃ node, g.nodes[id]? = some node ∧ node.isInline = true ∧
      ∃ u ∈ node.shape.ownUses, Occurs g name u := by
  cases occurs with
  | direct mentions => simp [TypeUse.ofNode, TypeUse.mentions, TypeUse.anyMentions] at mentions
  | @inside _ u other node named found inline own occurs =>
    obtain rfl : other = id := by
      simpa [TypeUse.ofNode, TypeUse.nodes, TypeUse.nodesOfAll] using named
    exact ⟨node, found, inline, u, own, occurs⟩

theorem mentions_deepen (u : TypeUse) (ranks : Nat) :
    (u.deepen ranks).mentions name = u.mentions name := by
  obtain ⟨target, depth, arguments⟩ := u
  cases target <;> simp only [TypeUse.deepen, TypeUse.mentions]

theorem nodes_deepen (u : TypeUse) (ranks : Nat) : (u.deepen ranks).nodes = u.nodes := by
  obtain ⟨target, depth, arguments⟩ := u
  cases target <;> simp only [TypeUse.deepen, TypeUse.nodes]

theorem Occurs.of_deepen {u : TypeUse} {ranks : Nat} (occurs : Occurs g name (u.deepen ranks)) :
    Occurs g name u := by
  cases occurs with
  | direct mentions => exact .direct (mentions_deepen u ranks ▸ mentions)
  | inside named found inline own occurs =>
    exact .inside (nodes_deepen u ranks ▸ named) found inline own occurs

end occurs

end Graph

namespace Fact

def flags (f : Fact) : Graph.Flags :=
  { internal := f.internal, isPublic := f.isPublic, rendered := f.shouldRender }

/-- The key of a declaration that comes with an origin. -/
def key? (f : Fact) : Option String := f.origin.map (f.name ++ "#" ++ ·)

end Fact

namespace Ingest
open TypeLoom.Graph TypeLoom.Fact Relation

/-! ### What the facts say -/

/-- A key that a declaration brings with it. -/
def Context.Explicit (c : Context) (key : String) : Prop :=
  ∃ fact ∈ c.facts, fact.isType = true ∧ fact.key? = some key

/-- A declaration brings a key of the form that nodes without an origin get. -/
def Context.Clashes (c : Context) : Prop := ∃ name n, c.Explicit (issuedKey name n)

theorem Context.not_clashes {c : Context} (none : ∀ fact ∈ c.facts, fact.origin = none) :
    ¬ c.Clashes := by
  rintro ⟨name, n, fact, mem, -, key⟩
  rw [key?, none fact mem] at key
  cases key

/-- Declarations that get a node of their own whatever else is declared. -/
def isSolid (f : Fact) : Bool :=
  match f.body with
  | .type (.enumeration _) | .type (.object ..) | .type (.array _) | .type (.tuple _) => true
  | _ => false

/-- Declarations that may get a node of their own or stand for that of another type. -/
def isAlias (f : Fact) : Bool :=
  match f.body with
  | .type (.union _) | .type (.reference ..)
  | .type (.enumLiteral ..) | .type (.parameter _) => true
  | _ => false

/-- All declarations that a node may be made for have names. -/
def Context.Named (c : Context) : Prop :=
  ∀ fact ∈ c.facts, (isSolid fact || isAlias fact) = true →
    Text.isBlankText fact.name.toList = false

theorem isType_of_registers {f : Fact} (registers : (isSolid f || isAlias f) = true) :
    f.isType = true := by
  rw [Fact.isType]
  cases body : f.body with
  | type type => rfl
  | constant initializer declared => simp [isSolid, isAlias, body] at registers

/-- The place of the declaration that a reference names. -/
def Context.place? (c : Context) (name : String) (origin : Option String) : Option Nat :=
  (origin.bind c.placeOfOrigin?).or (c.placesNamed name).head?

/-- A type that stands in the facts, where type parameters of these names can be used. -/
inductive Context.Has (c : Context) : List String → TypeExpr → Prop
  | body {fact : Fact} {type : TypeExpr} (mem : fact ∈ c.facts) (body : fact.body = .type type) :
      Has c fact.generics type
  | default {fact : Fact} {parameter : TypeParameter} {type : TypeExpr} (mem : fact ∈ c.facts)
      (listed : parameter ∈ fact.typeParameters) (default : parameter.default = some type) :
      Has c fact.generics type
  | constant {fact : Fact} {initializer : String} {type : TypeExpr} (mem : fact ∈ c.facts)
      (body : fact.body = .constant initializer (some type)) : Has c [] type
  | part {generics : List String} {whole type : TypeExpr} (has : Has c generics whole)
      (part : type ∈ whole.parts) : Has c generics type

/-- The properties of an object type, the type parameters that they can use, and the name under
which they are reported. -/
structure ObjectBody where
  subject : String
  generics : List String
  properties : List PropertyFact

def Context.HasBody (c : Context) (body : ObjectBody) : Prop :=
  ∃ signatures, c.Has body.generics (.object body.properties signatures)

def objectBody? (f : Fact) : Option ObjectBody :=
  f.properties?.map fun properties => ⟨f.name, f.generics, properties⟩

/-- What can be told of the use of a type before it is resolved. -/
structure Traits where
  /-- The type counts as one that admits null. -/
  nullable : Bool := false
  /-- The use is that of a type parameter, or an array of such. -/
  parameter : Bool := false
  /-- The use is an array, or has type arguments. -/
  wrapped : Bool := false

def arrayNames : List String := ["Array", "ReadonlyArray"]

def Traits.inArray (t : Traits) : Traits := { t with wrapped := !t.parameter }

mutual

def traits (c : Context) (generics : List String) : TypeExpr → Traits
  | .primitive kind => { nullable := kind.isNullish }
  | .union members =>
    let only := if (nonNull members).length = 1 then firstTraits c generics members else {}
    { only with nullable := members.any TypeExpr.isNullish || only.nullable }
  | .array element => (traits c generics element).inArray
  | .reference name origin arguments =>
    if generics.contains name && arguments.isEmpty then { parameter := true }
    else if (c.place? name origin).isSome then { wrapped := !arguments.isEmpty }
    else if arrayNames.contains name then elementTraits c generics arguments
    else if name == "Record" then {}
    else { wrapped := !arguments.isEmpty }
  | .parameter _ => { parameter := true }
  | .stringLiteral _ | .numberLiteral _ | .booleanLiteral _ | .enumLiteral .. | .enumeration _
  | .object .. | .tuple _ => {}
termination_by structural type => type

/-- Those of the first type that is not null. -/
def firstTraits (c : Context) (generics : List String) : List TypeExpr → Traits
  | [] => {}
  | type :: rest =>
    if type.isNullish then firstTraits c generics rest else traits c generics type
termination_by structural types => types

/-- Those of a builtin array. -/
def elementTraits (c : Context) (generics : List String) : List TypeExpr → Traits
  | [element] => (traits c generics element).inArray
  | _ => {}
termination_by structural types => types

end

/-- Declarations that do not stand for another type and so have a node of their own. -/
def ownsNode (c : Context) (f : Fact) : Bool :=
  match f.body with
  | .type (.enumeration _) | .type (.object ..) | .type (.array _) | .type (.tuple _) => true
  | .type type => type.memberNames?.isSome || (traits c f.generics type).wrapped
  | .constant .. => false

/-! ### States -/

/-- The graph is intact, and the nodes of the declarations built so far are in it. -/
structure Intact (s : State) : Prop where
  graph : s.graph.Intact
  built : ∀ place id, s.built.get? place = some id → id < s.graph.nodes.size

/-- The tables lead to the nodes that they are for. Only declarations with an origin have keys that
could have been meant for others, and only declarations are called like builtin arrays. -/
structure Keyed (c : Context) (g : Graph) : Prop where
  keys : ∀ key id, g.keys.get? key = some id → ∃ node, g.nodes[id]? = some node ∧ node.key = key
  primitives : ∀ kind id, g.primitives.get? kind = some id →
    ∃ node, g.nodes[id]? = some node ∧ node.shape.isOrdinary = false
  nodeKeys : ∀ (id : NodeId) (node : Node), g.nodes[id]? = some node →
    Spent g node.key ∨ c.Explicit node.key
  issued : ∀ (id : NodeId) (node : Node), g.nodes[id]? = some node →
    node.flags.anonymous = true ∨ node.shape.isOrdinary = false →
    (∃ name n, node.key = issuedKey name n) ∨ '#' ∉ node.key.toList
  arrays : ∀ (id : NodeId) (node : Node), g.nodes[id]? = some node → node.name ∈ arrayNames →
    ∃ fact ∈ c.facts, fact.isType = true ∧ fact.name = node.name

structure Valid (c : Context) (s : State) : Prop extends Intact s where
  keyed : Keyed c s.graph

/-- A node that can be named apart from the place that it was made for: as that of a declaration, or
because a reference has the name of the node. -/
def Exposed (c : Context) (s : State) (id : NodeId) : Prop :=
  (∃ place, s.built.get? place = some id) ∨
    ∃ node generics name origin arguments, s.graph.nodes[id]? = some node ∧
      c.Has generics (.reference name origin arguments) ∧ node.name = nameOfTypeText name

/-- A type parameter occurs in an inline node that can be named elsewhere. -/
def Leaks (c : Context) (s : State) : Prop :=
  ∃ id name, Occurs s.graph name (.ofNode id) ∧ Exposed c s id

/-- A type use made where only type parameters of these names can be used. -/
structure InScope (c : Context) (s : State) (generics : List String) (u : TypeUse) : Prop where
  inside : ∀ id ∈ u.nodes, id < s.graph.nodes.size
  direct : ∀ name, u.mentions name = true → name ∈ generics
  occurs : ¬ c.Clashes → ¬ Leaks c s → ∀ name, Occurs s.graph name u → name ∈ generics

/-- A node that was made for a declaration. -/
structure Declares (fact : Fact) (node : Node) : Prop where
  flags : node.flags = fact.flags
  key : fact.key? = some node.key ∨ fact.origin = none ∧ ∃ n, node.key = issuedKey fact.name n

/-- The node of a declaration is one that was made for it, or for one of the same key. -/
def Bears (g : Graph) (fact : Fact) (id : NodeId) : Prop :=
  ∃ node, g.nodes[id]? = some node ∧ node.flags.anonymous = false ∧ node.shape.isOrdinary = true ∧
    (Declares fact node ∨ fact.key? = some node.key)

/-- The declaration has a name, and the node bears it. -/
structure Owns (g : Graph) (fact : Fact) (id : NodeId) : Prop where
  visible : Text.isBlankText fact.name.toList = false
  bears : Bears g fact id

/-- A property has been left out, with a remark. -/
def Skipped (g : Graph) (subject name : String) : Prop :=
  ⟨.unresolvedType, subject ++ "." ++ name,
    "property type could not be resolved; property skipped"⟩ ∈ g.findings

/-- A property has been dealt with: the record has one of its name, or it has been left out. -/
def Treated (g : Graph) (id : NodeId) (subject : String) (fact : PropertyFact) : Prop :=
  Skipped g subject fact.name ∨ ∃ node, g.nodes[id]? = some node ∧
    (node.shape.isRecord = true → ∃ property ∈ node.shape.properties, property.name = fact.name)

def Provides (g : Graph) (id : NodeId) (generics : List String) : Prop :=
  ∃ node, g.nodes[id]? = some node ∧
    (node.shape.isRecord = true → generics ⊆ node.shape.parameterNames)

/-! ### Moves -/

/-- A record under construction: that of the declaration at a place, or an inline one. -/
structure Frame where
  id : NodeId
  place : Option Nat
  body : ObjectBody

structure Stage where
  frames : List Frame
  state : State

/-- A change that concerns no ordinary nodes. -/
structure Aside (c : Context) (g g' : Graph) : Prop where
  steps : Steps g g'
  old : ∀ (id : NodeId) (node : Node), g.nodes[id]? = some node →
    ∃ shape, g'.nodes[id]? = some { node with shape := shape } ∧ node.shape.Grows shape ∧
      (node.shape.isOrdinary = true → shape = node.shape)
  new : ∀ (id : NodeId) (node : Node), g'.nodes[id]? = some node → g.nodes[id]? = none →
    node.shape.isOrdinary = false
  findings : g.findings ⊆ g'.findings
  keyed : Keyed c g → Keyed c g'

/-- A node for a type without a name that can be appended as it is. -/
structure Nameless (g : Graph) (node : Node) : Prop where
  placed : g.Placed node
  ordinary : node.shape.isOrdinary = true
  anonymous : node.flags.anonymous = true
  key : ∃ name, node.key = issuedKey name g.issued
  name : node.name ∉ arrayNames

/-- A node for a declaration that can be appended as it is. -/
structure Declared (g : Graph) (fact : Fact) (node : Node) : Prop where
  placed : g.Placed node
  ordinary : node.shape.isOrdinary = true
  declares : Declares fact node
  spent : fact.key? = some node.key ∨ Spent g node.key
  name : node.name = fact.name ∨ node.name ∉ arrayNames

/-- What can happen in one move. -/
inductive Move (c : Context) : Stage → Stage → Prop
  | aside {frames : List Frame} {s : State} {g : Graph} (aside : Aside c s.graph g) :
      Move c ⟨frames, s⟩ ⟨frames, { s with graph := g }⟩
  /-- An inline node, complete with its parts. -/
  | inline {frames : List Frame} {s : State} {node : Node} {generics : List String}
      (nameless : Nameless s.graph node) (other : node.shape.isRecord = false)
      (parts : ∀ u ∈ node.shape.ownUses, InScope c s generics u) :
      Move c ⟨frames, s⟩ ⟨frames, { s with graph := (s.graph.push node).2 }⟩
  | start {frames : List Frame} {s : State} {node : Node} {body : ObjectBody}
      (nameless : Nameless s.graph node) (record : node.shape = .record [] [])
      (known : c.HasBody body) :
      Move c ⟨frames, s⟩
        ⟨⟨s.graph.nodes.size, none, body⟩ :: frames, { s with graph := (s.graph.push node).2 }⟩
  /-- An existing node is taken for an inline record. -/
  | mistake {frames : List Frame} {s : State} {id : NodeId} {body : ObjectBody}
      (clash : c.Clashes) (inside : id < s.graph.nodes.size) :
      Move c ⟨frames, s⟩ ⟨⟨id, none, body⟩ :: frames, s⟩
  | declare {frames : List Frame} {s : State} {node : Node} {fact : Fact} (mem : fact ∈ c.facts)
      (isType : fact.isType = true) (declared : Declared s.graph fact node)
      (empty : node.shape.isRecord = true → node.shape = .record [] []) :
      Move c ⟨frames, s⟩ ⟨frames, { s with graph := (s.graph.push node).2 }⟩
  | enter {frames : List Frame} {s : State} {place : Nat} {fact : Fact} {body : ObjectBody}
      {id : NodeId} (there : c.facts[place]? = some fact) (isBody : objectBody? fact = some body)
      (unbuilt : s.built.get? place = none) (inside : id < s.graph.nodes.size)
      (bears : c.Clashes ∨ Owns s.graph fact id) :
      Move c ⟨frames, s⟩
        ⟨⟨id, some place, body⟩ :: frames, { s with built := s.built.insert place id }⟩
  /-- Note the node of a declaration. Those of records have been noted when they were entered. -/
  | mark {frames : List Frame} {s : State} {place : Nat} {fact : Fact} {id : NodeId}
      (there : c.facts[place]? = some fact) (inside : id < s.graph.nodes.size)
      (unbuilt : s.built.get? place = some id ∨
        s.built.get? place = none ∧ objectBody? fact = none)
      (bears : ownsNode c fact = true → c.Clashes ∨ Owns s.graph fact id) :
      Move c ⟨frames, s⟩ ⟨frames, { s with built := s.built.insert place id }⟩
  | value {frames : List Frame} {s : State} {fact : Fact} {id : NodeId} {value : TypeUse}
      (bears : c.Clashes ∨ Owns s.graph fact id)
      (inside : ∀ id ∈ value.nodes, id < s.graph.nodes.size) :
      Move c ⟨frames, s⟩
        ⟨frames, { s with graph := s.graph.modifyShape id (setDictionaryValue value) }⟩
  | parameter {frames : List Frame} {s : State} {fact : Fact} {id : NodeId} {parameter : Parameter}
      (bears : c.Clashes ∨ Owns s.graph fact id)
      (inside : ∀ u, parameter.default = some u → ∀ id ∈ u.nodes, id < s.graph.nodes.size) :
      Move c ⟨frames, s⟩ ⟨frames, { s with graph := s.graph.addParameter id parameter }⟩
  | property {frames : List Frame} {s : State} {frame : Frame} {before after : List PropertyFact}
      {fact : PropertyFact} {property : Property} (current : frame ∈ frames)
      (split : frame.body.properties = before ++ fact :: after)
      (treated : ∀ earlier ∈ before, Treated s.graph frame.id frame.body.subject earlier)
      (name : property.name = fact.name)
      (optional : property.optional =
        (fact.optional || (traits c frame.body.generics fact.type).nullable))
      (inScope : InScope c s frame.body.generics property.type)
      (provided : frame.place.isSome = true →
        Provides s.graph frame.id frame.body.generics) :
      Move c ⟨frames, s⟩ ⟨frames, { s with graph := s.graph.addProperty frame.id property }⟩
  /-- An inline record takes a type parameter that it mentions as its own. -/
  | take {frames : List Frame} {s : State} {frame : Frame} {node : Node} {property : Property}
      {name : String} (current : frame ∈ frames) (inline : frame.place = none)
      (found : s.graph.nodes[frame.id]? = some node) (own : property ∈ node.shape.properties)
      (mentions : property.type.mentions name = true) :
      Move c ⟨frames, s⟩ ⟨frames, { s with graph := s.graph.addParameter frame.id ⟨name, none⟩ }⟩
  | close {frames : List Frame} {s : State} {frame : Frame}
      (treated : ∀ fact ∈ frame.body.properties,
        Treated s.graph frame.id frame.body.subject fact)
      (taken : frame.place = none → ∀ node, s.graph.nodes[frame.id]? = some node →
        ∀ property ∈ node.shape.properties, ∀ name ∈ frame.body.generics,
        property.type.mentions name = true → name ∈ node.shape.parameterNames) :
      Move c ⟨frame :: frames, s⟩ ⟨frames, s⟩
  /-- A declaration without a name ends everything that needs it. -/
  | abandon {frames : List Frame} {s : State} {frame : Frame} (nameless : ¬ c.Named) :
      Move c ⟨frame :: frames, s⟩ ⟨frames, s⟩

abbrev Moves (c : Context) : Stage → Stage → Prop := ReflTransGen (Move c)

/-! ### What stays -/

/-- A later state: nodes have grown, inline nodes are the same, and what has been built or reported
stays so. -/
structure Later (c : Context) (s s' : State) : Prop where
  nodes : ∀ (id : NodeId) (node : Node), s.graph.nodes[id]? = some node →
    ∃ shape, s'.graph.nodes[id]? = some { node with shape := shape } ∧ node.shape.Grows shape ∧
      (¬ c.Clashes → node.isInline = true → shape = node.shape)
  built : ∀ place id, s.built.get? place = some id → s'.built.get? place = some id
  findings : s.graph.findings ⊆ s'.graph.findings

namespace Later
variable {c : Context} {s s' s'' : State}

theorem refl (c : Context) (s : State) : Later c s s where
  nodes _ node found := ⟨node.shape, found, .refl _, fun _ _ => rfl⟩
  built _ _ := id
  findings := List.Subset.refl _

theorem trans (first : Later c s s') (second : Later c s' s'') : Later c s s'' where
  nodes id node found := by
    obtain ⟨shape, found', grows, same⟩ := first.nodes id node found
    obtain ⟨shape', found'', grows', same'⟩ := second.nodes id _ found'
    refine ⟨shape', found'', grows.trans grows', fun apart inline => ?_⟩
    have isShape := same apart inline
    have still : ({ node with shape := shape } : Node).isInline = true := by
      rw [isShape]
      exact inline
    exact (same' apart still).trans isShape
  built place id known := second.built place id (first.built place id known)
  findings := List.Subset.trans first.findings second.findings

theorem inside (later : Later c s s') {id : NodeId} (lt : id < s.graph.nodes.size) :
    id < s'.graph.nodes.size := by
  obtain ⟨shape, found, -⟩ := later.nodes id s.graph.nodes[id] (Array.getElem?_eq_getElem lt)
  exact (Array.getElem?_eq_some_iff.mp found).1

theorem of_push {g : Graph} {node : Node} (nodes : g.nodes = s.graph.nodes.push node)
    (findings : g.findings = s.graph.findings) : Later c s { s with graph := g } where
  nodes id other found := by
    refine ⟨other.shape, ?_, .refl _, fun _ _ => rfl⟩
    show g.nodes[id]? = some other
    rw [nodes, Array.getElem?_push, if_neg (Array.getElem?_eq_some_iff.mp found).1.ne]
    exact found
  built _ _ := id
  findings := by
    show s.graph.findings ⊆ g.findings
    rw [findings]
    exact List.Subset.refl _

theorem of_reshape (intact : s.graph.Intact) {id : NodeId} {f : Shape → Shape}
    (grows : ∀ shape : Shape, shape.Grows (f shape))
    (inline : ¬ c.Clashes → ∀ node, s.graph.nodes[id]? = some node → node.isInline = true →
      f node.shape = node.shape) :
    Later c s { s with graph := s.graph.modifyShape id f } where
  nodes other node found := by
    show ∃ shape, (s.graph.modifyShape id f).nodes[other]? = _ ∧ _
    rw [modifyShape_getElem?, intact.resolve_eq]
    split_ifs with same
    · subst same
      exact ⟨f node.shape, by rw [found]; rfl, grows _, fun apart => inline apart node found⟩
    · exact ⟨node.shape, found, .refl _, fun _ _ => rfl⟩
  built _ _ known := known
  findings := List.Subset.refl _

theorem of_built {place : Nat} {id : NodeId}
    (same : s.built.get? place = some id ∨ s.built.get? place = none) :
    Later c s { s with built := s.built.insert place id } where
  nodes _ node found := ⟨node.shape, found, .refl _, fun _ _ => rfl⟩
  built other found known := by
    show (s.built.insert place id).get? other = some found
    rw [Table.get?_insert]
    split_ifs with here
    · subst here
      rcases same with same | same
      · exact same.symm.trans known
      · rw [same] at known
        cases known
    · exact known
  findings := List.Subset.refl _

end Later

theorem Aside.later {c : Context} {s : State} {g : Graph} (aside : Aside c s.graph g) :
    Later c s { s with graph := g } where
  nodes id node found := by
    obtain ⟨shape, found', grows, same⟩ := aside.old id node found
    refine ⟨shape, found', grows, fun _ inline => same ?_⟩
    rw [Node.isInline, Bool.and_eq_true] at inline
    exact Shape.isOrdinary_of_isInline inline.2
  built _ _ := id
  findings := aside.findings

section later
variable {c : Context} {s s' : State} (after : Later c s s')
include after

theorem Later.occurs (apart : ¬ c.Clashes) {name : String} {u : TypeUse}
    (occurs : Occurs s.graph name u) : Occurs s'.graph name u := by
  induction occurs with
  | direct mentions => exact .direct mentions
  | @inside u v id node named found inline own _ ih =>
    obtain ⟨shape, found', -, same⟩ := after.nodes id node found
    have isShape := same apart inline
    subst isShape
    exact .inside named found' inline own ih

theorem Later.occurs_before (intact : s.graph.Intact) (apart : ¬ c.Clashes) {name : String}
    {u : TypeUse} (occurs : Occurs s'.graph name u)
    (inside : ∀ id ∈ u.nodes, id < s.graph.nodes.size) : Occurs s.graph name u := by
  induction occurs with
  | direct mentions => exact .direct mentions
  | @inside u v id node named found inline own _ ih =>
    obtain ⟨before, there⟩ : ∃ before, s.graph.nodes[id]? = some before :=
      ⟨_, Array.getElem?_eq_getElem (inside id named)⟩
    obtain ⟨shape, found', grows, same⟩ := after.nodes id before there
    rw [found, Option.some_inj] at found'
    subst found'
    have inline' : before.isInline = true := by
      rw [Node.isInline, Shape.isInline_of_label grows.label] at inline
      exact inline
    have isShape := same apart inline'
    subst isShape
    refine .inside named there inline' own (ih fun id' member => ?_)
    refine intact.closed there id' ?_
    exact (Shape.mem_outgoing _ id').mpr (.inr ⟨v, List.mem_append_right _ own, member⟩)

theorem Leaks.later (apart : ¬ c.Clashes) (leaks : Leaks c s) : Leaks c s' := by
  obtain ⟨id, name, occurs, exposed⟩ := leaks
  refine ⟨id, name, after.occurs apart occurs, ?_⟩
  rcases exposed with ⟨place, known⟩ | ⟨node, generics, text, origin, arguments, found, has, same⟩
  · exact .inl ⟨place, after.built place id known⟩
  · obtain ⟨shape, found', -⟩ := after.nodes id node found
    exact .inr ⟨_, generics, text, origin, arguments, found', has, same⟩

theorem InScope.later (intact : s.graph.Intact) {generics : List String} {u : TypeUse}
    (inScope : InScope c s generics u) : InScope c s' generics u where
  inside id member := after.inside (inScope.inside id member)
  direct := inScope.direct
  occurs apart sealed name occurs := inScope.occurs apart
    (fun leaks => sealed (leaks.later after apart)) name
    (after.occurs_before intact apart occurs inScope.inside)

theorem Bears.later {fact : Fact} {id : NodeId} (bears : Bears s.graph fact id) :
    Bears s'.graph fact id := by
  obtain ⟨node, found, named, ordinary, key⟩ := bears
  obtain ⟨shape, found', grows, -⟩ := after.nodes id node found
  refine ⟨_, found', named, ?_, key.imp_left fun declares => ⟨declares.flags, declares.key⟩⟩
  rw [← ordinary]
  exact Shape.isOrdinary_of_label grows.label

theorem Owns.later {fact : Fact} {id : NodeId} (owns : Owns s.graph fact id) :
    Owns s'.graph fact id := ⟨owns.visible, owns.bears.later after⟩

theorem Skipped.later {subject name : String} (skipped : Skipped s.graph subject name) :
    Skipped s'.graph subject name := after.findings skipped

theorem Provides.later {id : NodeId} {generics : List String}
    (provides : Provides s.graph id generics) : Provides s'.graph id generics := by
  obtain ⟨node, found, present⟩ := provides
  obtain ⟨shape, found', grows, -⟩ := after.nodes id node found
  refine ⟨_, found', fun record => ?_⟩
  have isRecord : node.shape.isRecord = true := by
    rw [← record]
    exact (Shape.isRecord_of_label grows.label).symm
  exact List.Subset.trans (present isRecord) grows.generics

theorem Treated.later {id : NodeId} {subject : String} {fact : PropertyFact}
    (treated : Treated s.graph id subject fact) : Treated s'.graph id subject fact := by
  rcases treated with skipped | ⟨node, found, present⟩
  · exact .inl (skipped.later after)
  · obtain ⟨shape, found', grows, -⟩ := after.nodes id node found
    refine .inr ⟨_, found', fun record => ?_⟩
    have isRecord : node.shape.isRecord = true := by
      rw [← record]
      exact (Shape.isRecord_of_label grows.label).symm
    obtain ⟨property, own, name⟩ := present isRecord
    exact ⟨property, grows.properties own, name⟩

end later

/-! ### Shapes that are added to -/

theorem reshapes_addProperty {g : Graph} {property : Property}
    (inside : ∀ id ∈ property.type.nodes, id < g.nodes.size) :
    g.Reshapes (Shape.addProperty · property) where
  label shape := (shape.grows_addProperty property).label
  union _ := rfl
  filled _ := Shape.constants.inj
  inside _ _ member := (Shape.mem_outgoing_addProperty member).imp_right (inside _)

theorem reshapes_addParameter {g : Graph} {parameter : Parameter}
    (inside : ∀ u, parameter.default = some u → ∀ id ∈ u.nodes, id < g.nodes.size) :
    g.Reshapes (Shape.addParameter · parameter) where
  label shape := (shape.grows_addParameter parameter).label
  union _ := rfl
  filled items := by simp [Shape.addParameter, Shape.withGenerics]
  inside _ _ member := (Shape.mem_outgoing_addParameter member).imp_right fun known => by
    obtain ⟨u, found, within⟩ := known
    exact inside u found _ within

theorem reshapes_setDictionaryValue {g : Graph} {value : TypeUse}
    (inside : ∀ id ∈ value.nodes, id < g.nodes.size) : g.Reshapes (setDictionaryValue value) where
  label shape := (shape.grows_setDictionaryValue value).label
  union _ := rfl
  filled _ := Shape.constants.inj
  inside shape id member := by
    cases shape with
    | dictionary key old generics =>
      simp only [setDictionaryValue, Shape.mem_outgoing, Shape.typeUses, Shape.ownUses,
        Shape.base?, Shape.generics, List.mem_append, List.mem_singleton] at member ⊢
      grind
    | _ => exact .inl member

/-! ### What a move does -/

section move
variable {c : Context} {σ σ' : Stage}

theorem Move.steps (move : Move c σ σ') : Steps σ.state.graph σ'.state.graph := by
  cases move with
  | aside aside => exact aside.steps
  | inline nameless _ _ | start nameless _ _ =>
    exact .single (.append nameless.placed (Shape.ne_classUnion_of_isOrdinary nameless.ordinary))
  | declare _ _ declared _ =>
    exact .single (.append declared.placed (Shape.ne_classUnion_of_isOrdinary declared.ordinary))
  | mistake _ _ => exact .refl
  | enter _ _ _ _ _ => exact .refl
  | mark _ _ _ _ => exact .refl
  | close _ _ => exact .refl
  | abandon _ => exact .refl
  | value _ inside => exact .single (.reshape _ (reshapes_setDictionaryValue inside))
  | parameter _ inside => exact .single (.reshape _ (reshapes_addParameter inside))
  | property _ _ _ _ _ inScope _ =>
    exact .single (.reshape _ (reshapes_addProperty inScope.inside))
  | take _ _ _ _ _ => exact .single (.reshape _ (reshapes_addParameter fun _ none => by cases none))

theorem Bears.not_inline {g : Graph} {fact : Fact} {id : NodeId} (bears : Bears g fact id)
    {node : Node} (found : g.nodes[id]? = some node) : node.isInline = false := by
  obtain ⟨other, there, named, -⟩ := bears
  rw [found, Option.some_inj] at there
  subst there
  rw [Node.isInline, named, Bool.false_and]

theorem Move.later (move : Move c σ σ') (intact : Intact σ.state) : Later c σ.state σ'.state := by
  -- Shapes of nodes that are not inline may change.
  have reshape {s : State} {id : NodeId} {f : Shape → Shape} (intact : Intact s)
      (grows : ∀ shape : Shape, shape.Grows (f shape))
      (other : ¬ c.Clashes → ∀ node, s.graph.nodes[id]? = some node → node.isInline = false) :
      Later c s { s with graph := s.graph.modifyShape id f } := by
    refine .of_reshape intact.graph grows fun apart node found inline => ?_
    rw [other apart node found] at inline
    cases inline
  cases move with
  | aside aside => exact aside.later
  | inline _ _ _ => exact .of_push rfl rfl
  | start _ _ _ => exact .of_push rfl rfl
  | declare _ _ _ _ => exact .of_push rfl rfl
  | mistake _ _ => exact .refl c _
  | close _ _ => exact .refl c _
  | abandon _ => exact .refl c _
  | enter _ _ unbuilt _ _ => exact .of_built (.inr unbuilt)
  | mark _ _ unbuilt _ => exact .of_built (unbuilt.imp_right And.left)
  | @value _ s fact id value bears _ =>
    refine reshape intact (fun shape => shape.grows_setDictionaryValue value)
      fun apart _ found => ?_
    exact (bears.resolve_left apart).bears.not_inline found
  | @parameter _ s fact id parameter bears _ =>
    refine reshape intact (fun shape => shape.grows_addParameter parameter) fun apart _ found => ?_
    exact (bears.resolve_left apart).bears.not_inline found
  | @property _ s frame _ _ _ property _ _ _ _ _ _ _ =>
    refine .of_reshape intact.graph (fun shape => shape.grows_addProperty property)
      fun _ node _ inline => ?_
    rw [Node.isInline, Bool.and_eq_true] at inline
    cases shape : node.shape with
    | record properties generics =>
      rw [shape] at inline
      cases inline.2
    | _ => rfl
  | @take _ s frame node property name _ _ found own _ =>
    refine reshape intact (fun shape => shape.grows_addParameter _) fun _ other there => ?_
    rw [found, Option.some_inj] at there
    subst there
    have record := Shape.isRecord_of_mem own
    rw [Node.isInline]
    revert record
    cases node.shape <;> simp [Shape.isRecord, Shape.isInline]

theorem Keyed.of_push {g g' : Graph} (keyed : Keyed c g) {node : Node}
    (nodes : g'.nodes = g.nodes.push node) (keys : g'.keys = g.keys.insert node.key g.nodes.size)
    (primitives : ∀ kind id, g'.primitives.get? kind = some id →
      g.primitives.get? kind = some id ∨ id = g.nodes.size ∧ node.shape.isOrdinary = false)
    (issued : g'.issued = g.issued) (own : Spent g node.key ∨ c.Explicit node.key)
    (unnamed : node.flags.anonymous = true ∨ node.shape.isOrdinary = false →
      (∃ name n, node.key = issuedKey name n) ∨ '#' ∉ node.key.toList)
    (array : node.name ∈ arrayNames →
      ∃ fact ∈ c.facts, fact.isType = true ∧ fact.name = node.name) : Keyed c g' := by
  have cases (id : NodeId) (other : Node) (found : g'.nodes[id]? = some other) :
      other = node ∨ g.nodes[id]? = some other := by
    rw [nodes, Array.getElem?_push] at found
    split_ifs at found
    · exact .inl (Option.some.inj found).symm
    · exact .inr found
  have last : g'.nodes[g.nodes.size]? = some node := by rw [nodes, Array.getElem?_push_size]
  have kept (id : NodeId) (other : Node) (there : g.nodes[id]? = some other) :
      g'.nodes[id]? = some other := by
    rw [nodes, Array.getElem?_push, if_neg (Array.getElem?_eq_some_iff.mp there).1.ne]
    exact there
  refine ⟨fun key id found => ?_, fun kind id found => ?_, fun id other found => ?_,
    fun id other found => ?_, fun id other found => ?_⟩
  · rw [keys, Table.get?_insert] at found
    split_ifs at found with same
    · cases found
      exact ⟨node, last, same.symm⟩
    · obtain ⟨other, there, isKey⟩ := keyed.keys key id found
      exact ⟨other, kept id other there, isKey⟩
  · rcases primitives kind id found with old | ⟨rfl, strange⟩
    · obtain ⟨other, there, strange⟩ := keyed.primitives kind id old
      exact ⟨other, kept id other there, strange⟩
    · exact ⟨node, last, strange⟩
  · rcases cases id other found with rfl | there
    · exact own.imp_left fun spent => spent.mono issued.ge
    · exact (keyed.nodeKeys id other there).imp_left fun spent => spent.mono issued.ge
  · rcases cases id other found with rfl | there
    · exact unnamed
    · exact keyed.issued id other there
  · rcases cases id other found with rfl | there
    · exact array
    · exact keyed.arrays id other there

theorem Keyed.of_reshape {g : Graph} (keyed : Keyed c g) (id : NodeId) {f : Shape → Shape}
    (label : ∀ shape, (f shape).label = shape.label) : Keyed c (g.modifyShape id f) := by
  refine ⟨fun key other found => ?_, fun kind other found => ?_, fun other node found => ?_,
    fun other node found => ?_, fun other node found => ?_⟩
  · obtain ⟨node, there, isKey⟩ := keyed.keys key other found
    rw [modifyShape_getElem?, there]
    split_ifs
    · exact ⟨_, rfl, isKey⟩
    · exact ⟨node, rfl, isKey⟩
  · obtain ⟨node, there, strange⟩ := keyed.primitives kind other found
    rw [modifyShape_getElem?, there]
    split_ifs
    · exact ⟨_, rfl, (Shape.isOrdinary_of_label (label node.shape)).trans strange⟩
    · exact ⟨node, rfl, strange⟩
  · obtain ⟨before, there, rfl | rfl⟩ := node_of_modifyShape found
    · exact keyed.nodeKeys other node there
    · exact keyed.nodeKeys other before there
  · obtain ⟨before, there, rfl | rfl⟩ := node_of_modifyShape found
    · exact keyed.issued other node there
    · have same := Shape.isOrdinary_of_label (label before.shape)
      dsimp only
      rw [same]
      exact keyed.issued other before there
  · obtain ⟨before, there, rfl | rfl⟩ := node_of_modifyShape found
    · exact keyed.arrays other node there
    · exact keyed.arrays other before there

theorem Nameless.keyed {g : Graph} {node : Node} (nameless : Nameless g node) (keyed : Keyed c g) :
    Keyed c (g.push node).2 := by
  obtain ⟨name, key⟩ := nameless.key
  refine keyed.of_push rfl rfl (fun _ _ => .inl) rfl (.inl ?_)
    (fun _ => .inl ⟨name, g.issued, key⟩) (fun array => absurd array nameless.name)
  rw [key]
  exact spent_issuedKey g name

theorem Declared.keyed {g : Graph} {fact : Fact} {node : Node} (declared : Declared g fact node)
    (mem : fact ∈ c.facts) (isType : fact.isType = true) (keyed : Keyed c g) :
    Keyed c (g.push node).2 := by
  refine keyed.of_push rfl rfl (fun _ _ => .inl) rfl ?_ ?_ ?_
  · exact declared.spent.symm.imp_right fun known => ⟨fact, mem, isType, known⟩
  · intro unnamed
    rw [declared.declares.flags, declared.ordinary] at unnamed
    rcases unnamed with anonymous | strange
    · cases anonymous
    · cases strange
  · intro array
    rcases declared.name with name | other
    · exact ⟨fact, mem, isType, name.symm⟩
    · exact absurd array other

theorem Move.valid (move : Move c σ σ') (valid : Valid c σ.state) : Valid c σ'.state := by
  have later := move.later valid.toIntact
  have graph := move.steps.intact valid.graph
  have built (place : Nat) (id : NodeId) (known : σ.state.built.get? place = some id) :
      id < σ'.state.graph.nodes.size := later.inside (valid.built place id known)
  have insert {t : Table Nat NodeId} {place : Nat} {id : NodeId} {size : Nat} (inside : id < size)
      (old : ∀ place id, t.get? place = some id → id < size) (other : Nat) (found : NodeId)
      (known : (t.insert place id).get? other = some found) : found < size := by
    rcases get?_insert_cases _ known with rfl | known
    · exact inside
    · exact old other found known
  cases move with
  | aside aside => exact ⟨⟨graph, built⟩, aside.keyed valid.keyed⟩
  | inline nameless _ _ => exact ⟨⟨graph, built⟩, nameless.keyed valid.keyed⟩
  | start nameless _ _ => exact ⟨⟨graph, built⟩, nameless.keyed valid.keyed⟩
  | declare mem isType declared _ =>
    exact ⟨⟨graph, built⟩, declared.keyed mem isType valid.keyed⟩
  | mistake _ _ => exact valid
  | close _ _ => exact valid
  | abandon _ => exact valid
  | enter _ _ _ inside _ => exact ⟨⟨graph, insert inside valid.built⟩, valid.keyed⟩
  | mark _ inside _ _ => exact ⟨⟨graph, insert inside valid.built⟩, valid.keyed⟩
  | value _ _ =>
    exact ⟨⟨graph, built⟩,
      valid.keyed.of_reshape _ fun shape => (shape.grows_setDictionaryValue _).label⟩
  | parameter _ _ =>
    exact ⟨⟨graph, built⟩,
      valid.keyed.of_reshape _ fun shape => (shape.grows_addParameter _).label⟩
  | property _ _ _ _ _ _ _ =>
    exact ⟨⟨graph, built⟩,
      valid.keyed.of_reshape _ fun shape => (shape.grows_addProperty _).label⟩
  | take _ _ _ _ _ =>
    exact ⟨⟨graph, built⟩,
      valid.keyed.of_reshape _ fun shape => (shape.grows_addParameter _).label⟩

theorem Moves.valid (moves : Moves c σ σ') (valid : Valid c σ.state) : Valid c σ'.state := by
  induction moves with
  | refl => exact valid
  | tail _ move ih => exact move.valid ih

theorem Moves.steps (moves : Moves c σ σ') : Steps σ.state.graph σ'.state.graph := by
  induction moves with
  | refl => exact .refl
  | tail _ move ih => exact ih.trans move.steps

theorem Moves.later (moves : Moves c σ σ') (valid : Valid c σ.state) :
    Later c σ.state σ'.state := by
  induction moves with
  | refl => exact .refl c _
  | tail before move ih => exact ih.trans (move.later (Moves.valid before valid).toIntact)

end move

end Ingest

end TypeLoom
