import TypeLoom.Proofs.Provenance
import TypeLoom.Proofs.Visibility

/-! Type parameters of records. The properties of a record mention parameters that are its own. What
they use by way of inline types is another matter: an inline record takes only the parameters that
its properties mention directly, and a name for an inline type can carry a parameter out of the
declaration that it belongs to. -/
namespace TypeLoom

namespace Graph

theorem Occurs.mentions {g : Graph} (named : ∀ node ∈ g.nodes, node.isInline = false)
    {name : String} {u : TypeUse} (occurs : Occurs g name u) : u.mentions name = true := by
  cases occurs with
  | direct mentions => exact mentions
  | inside _ found inline =>
    rw [named _ (Array.mem_of_getElem? found)] at inline
    cases inline

/-- The type parameter is mentioned in an inline node that the use refers to. -/
def mentionsInside (g : Graph) (name : String) (u : TypeUse) : Bool :=
  u.nodes.any fun id => (g.nodes[id]?).any fun node =>
    node.isInline && node.shape.ownUses.any (TypeUse.mentions name)

theorem Occurs.of_mentionsInside {g : Graph} {name : String} {u : TypeUse}
    (inside : mentionsInside g name u = true) : Occurs g name u := by
  obtain ⟨id, named, inside⟩ := List.any_eq_true.mp inside
  obtain ⟨node, found, inside⟩ := (Option.any_eq_true _ _).mp inside
  obtain ⟨inline, inside⟩ := Bool.and_eq_true_iff.mp inside
  obtain ⟨v, own, mentions⟩ := List.any_eq_true.mp inside
  exact .inside named found inline own (.direct mentions)

/-- Type parameters that occur in the properties, directly or in inline types, are the node's own.
-/
def Encloses (g : Graph) (node : Node) : Prop :=
  ∀ property ∈ node.shape.properties, ∀ name, Occurs g name property.type →
    name ∈ node.shape.parameterNames

def Mentioned (node : Node) (name : String) : Prop :=
  ∃ property ∈ node.shape.properties, property.type.mentions name = true

end Graph

namespace Ingest
open TypeLoom.Graph TypeLoom.Fact

section records
variable {c : Context} {s : State} (traced : Traced c ⟨[], s⟩) {id : NodeId} {node : Node}
  (found : s.graph.nodes[id]? = some node)
include traced found

theorem Traced.mem_parameterNames (named : c.Named) (record : node.shape.isRecord = true)
    (anonymous : node.flags.anonymous = true) (name : String) :
    name ∈ node.shape.parameterNames ↔ Mentioned node name := by
  obtain ⟨body, inline⟩ := traced.inline id node found anonymous record
  refine ⟨inline.mentioned name, fun mentioned => ?_⟩
  obtain ⟨property, own, mentions⟩ := mentioned
  obtain ⟨_, _, _, -, made, -⟩ := inline.stems property own
  obtain ⟨frame, current, -⟩ | nameless | finished := inline.finished
  · cases current
  · exact absurd named nameless
  · exact finished.taken property own name (made.inScope.direct name mentions) mentions

theorem Traced.parameter_of_mentioned (declared : node.flags.anonymous = false) {name : String}
    (mentioned : Mentioned node name) : name ∈ node.shape.parameterNames := by
  obtain ⟨property, own, mentions⟩ := mentioned
  obtain ⟨_, body, -, ⟨_, _, _, -, made, -⟩, generics⟩ :=
    traced.declared id node found declared property own
  exact generics (made.inScope.direct name mentions)

theorem Traced.encloses (declared : node.flags.anonymous = false) (apart : ¬ c.Clashes)
    (tight : ¬ Leaks c s) : Encloses s.graph node := by
  intro property own name occurs
  obtain ⟨_, body, -, ⟨_, _, _, -, made, -⟩, generics⟩ :=
    traced.declared id node found declared property own
  exact generics (made.inScope.occurs apart tight name occurs)

end records

/-- A record has the type parameters that its properties mention directly. If it is inline, it is
closed just if nothing else occurs in them; if it is declared, it is closed unless a parameter
occurs in an inline type that can be named apart from its place. -/
theorem record_parameters {settings : Settings} {facts : List Fact}
    (apart : ¬ Context.Clashes ⟨settings, facts⟩)
    (ingested : (ingestion settings facts).1 = .ok ())
    (aliases : Context.NamedAliases ⟨settings, facts⟩) {id : NodeId} {node : Node}
    (found : (ingestion settings facts).2.graph.nodes[id]? = some node)
    (record : node.shape.isRecord = true) :
    (∀ name, Mentioned node name → name ∈ node.shape.parameterNames) ∧
      (node.flags.anonymous = true → (Encloses (ingestion settings facts).2.graph node ↔
        ∀ property ∈ node.shape.properties, ∀ name,
          Occurs (ingestion settings facts).2.graph name property.type → Mentioned node name)) ∧
      (node.flags.anonymous = false → ¬ Leaks ⟨settings, facts⟩ (ingestion settings facts).2 →
        Encloses (ingestion settings facts).2.graph node) := by
  have traced := ingestion_traced apart
  have named := ingestion_named apart ingested aliases
  refine ⟨fun name mentioned => ?_, fun anonymous => ?_,
    fun declared => traced.encloses found declared apart⟩
  · cases anonymous : node.flags.anonymous with
    | true => exact (traced.mem_parameterNames found named record anonymous name).mpr mentioned
    | false => exact traced.parameter_of_mentioned found anonymous mentioned
  · simp only [Encloses, traced.mem_parameterNames found named record anonymous]

/-- An alias without a name is refused inside the search for an enum, which passes over this and
leaves a record unfinished, and is accepted later on, when there is an enum that it stands for. -/
def passedOver : List Fact := [
  .ofType "E" (.union [.enumLiteral (some "X") "a" none, .enumLiteral (some "X") "b" none]),
  { Fact.ofType "X" (.object [{ name := "p", type := .object [
      { name := "u", type := .reference "T" none [] },
      { name := "v", type := .reference " " none [] }] [] }] []) with
    typeParameters := [{ name := "T" }] },
  .ofType " " (.union [.enumLiteral (some "E") "a" none, .enumLiteral (some "E") "b" none])]

-- The ingest succeeds, and the inline record mentions a type parameter that it has not taken.
example : (ingestion {} passedOver).1.isOk = true ∧
    ((ingestion {} passedOver).2.graph.nodes[1]?).any (fun node =>
      node.shape.isRecord && node.shape.parameterNames.isEmpty &&
        node.shape.properties.any fun property => property.type.mentions "T") = true := by
  decide +kernel

/-- A record with an inline record that uses its type parameter. -/
def boxed (type : TypeExpr) : List Fact :=
  let inner : TypeExpr := .object [{ name := "value", type }] []
  [{ Fact.ofType "Box" (.object [{ name := "inner", type := inner }] []) with
    typeParameters := [{ name := "T" }] }]

theorem record_parameters_boxed : ∃ inner outer : Node,
    (ingestion {} (boxed (.reference "T" none []))).2.graph.nodes[1]? = some inner ∧
    (ingestion {} (boxed (.reference "T" none []))).2.graph.nodes[0]? = some outer ∧
    inner.flags.anonymous = true ∧ outer.flags.anonymous = false ∧ Mentioned inner "T" ∧
    Encloses (ingestion {} (boxed (.reference "T" none []))).2.graph inner ∧
    Encloses (ingestion {} (boxed (.reference "T" none []))).2.graph outer := by
  have apart : ¬ Context.Clashes ⟨{}, boxed (.reference "T" none [])⟩ :=
    Context.not_clashes (by decide)
  have aliases : Context.NamedAliases ⟨{}, boxed (.reference "T" none [])⟩ := by
    rw [Context.NamedAliases]
    decide
  generalize isType : boxed (.reference "T" none []) = facts at apart aliases ⊢
  have ingested : (ingestion {} facts).1 = .ok () := by
    subst isType
    decide +kernel
  have inner : ((ingestion {} facts).2.graph.nodes[1]?).any (fun node =>
      node.shape.isRecord && node.flags.anonymous &&
        node.shape.properties.any fun property => property.type.mentions "T") = true := by
    subst isType
    decide +kernel
  have outer : ((ingestion {} facts).2.graph.nodes[0]?).any (fun node =>
      node.shape.isRecord && !node.flags.anonymous) = true := by
    subst isType
    decide +kernel
  have written : ∀ node ∈ (ingestion {} facts).2.graph.nodes, node.isInline = false := by
    subst isType
    decide +kernel
  obtain ⟨inside, found, isInside⟩ := (Option.any_eq_true _ _).mp inner
  obtain ⟨around, found', isAround⟩ := (Option.any_eq_true _ _).mp outer
  simp only [Bool.and_eq_true, List.any_eq_true, Bool.not_eq_true'] at isInside isAround
  obtain ⟨⟨record, anonymous⟩, mentioned⟩ := isInside
  have tight : ¬ Leaks ⟨{}, facts⟩ (ingestion {} facts).2 := by
    rintro ⟨id, name, occurs, -⟩
    have mentions := occurs.mentions written
    simp [TypeUse.ofNode, TypeUse.mentions, TypeUse.anyMentions] at mentions
  refine ⟨inside, around, found, found', anonymous, isAround.2, mentioned, ?_, ?_⟩
  · refine ((record_parameters apart ingested aliases found record).2.1 anonymous).mpr
      fun property own name occurs => ⟨property, own, occurs.mentions written⟩
  · exact (record_parameters apart ingested aliases found' isAround.1).2.2 isAround.2
      tight

/-- An inline record with an inline type that uses the parameter of the record around it, and a name
for an inline type that uses a parameter. -/
def unbound : List (List Fact) := [
  boxed (.object [] [⟨.string, .reference "T" none []⟩]),
  [{ Fact.ofType "M" (.union [.tuple [.reference "T" none []], .primitive .null]) with
      typeParameters := [{ name := "T" }] },
    .ofType "R" (.object [{ name := "a", type := .reference "M" none [] }] [])]]

/-- Both records have no type parameters and use one. -/
theorem record_not_closed : unbound.Forall fun facts => ∃ node,
    (ingestion {} facts).1.isOk = true ∧
    (ingestion {} facts).2.graph.nodes[1]? = some node ∧ node.shape.isRecord = true ∧
    node.shape.parameterNames = [] ∧
    ∃ property ∈ node.shape.properties, Occurs (ingestion {} facts).2.graph "T" property.type := by
  have done : ∀ facts ∈ unbound, (ingestion {} facts).1.isOk = true := by decide +kernel
  have evaluated : ∀ facts ∈ unbound, ((ingestion {} facts).2.graph.nodes[1]?).any (fun node =>
      node.shape.isRecord && node.shape.parameterNames.isEmpty &&
        node.shape.properties.any fun property =>
          mentionsInside (ingestion {} facts).2.graph "T" property.type) = true := by
    decide +kernel
  refine List.forall_iff_forall_mem.mpr fun facts mem => ?_
  obtain ⟨node, found, isNode⟩ := (Option.any_eq_true _ _).mp (evaluated facts mem)
  simp only [Bool.and_eq_true, List.isEmpty_iff, List.any_eq_true] at isNode
  obtain ⟨⟨record, none⟩, property, own, inside⟩ := isNode
  exact ⟨node, done facts mem, found, record, none, property, own, .of_mentionsInside inside⟩

end Ingest

end TypeLoom
