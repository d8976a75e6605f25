import TypeLoom.Proofs.Declarations

/-! The order of the declarations. Which properties a record ends up with depends on the order only
where a property asks for a declaration that waits for the record, or for something that is looked
up among the nodes that happen to be there. -/
namespace TypeLoom.Ingest
open TypeLoom.Graph TypeLoom.Fact

/-- The ingest of a list of declarations into an empty graph. -/
def ingestion (settings : Settings) (facts : List Fact) : Except MissingIdentity Unit × State :=
  (buildFacts ⟨settings, facts⟩).run.run { graph := .empty }

theorem ingest_eq (settings : Settings) (facts : List Fact) : Graph.empty.ingest settings facts =
    ((ingestion settings facts).1, (ingestion settings facts).2.graph) := rfl

def propertyNames? : Shape → Option (List String)
  | .record properties _ => some (properties.map Property.name)
  | _ => none

/-- Names of the properties of the record that a declaration has become. -/
def recordNames (settings : Settings) (facts : List Fact) (name : String) :
    Option (List String) := do
  let s := (ingestion settings facts).2
  let place ← facts.findIdx? (·.name == name)
  let id ← s.built.get? place
  let node ← s.graph.node? id
  propertyNames? node.shape

/-- The graph settles all questions that the properties of the record ask. -/
def Unambiguous (D : Set Fact) (g : Graph) (fact : Fact) : Prop :=
  ∀ properties, fact.properties? = some properties → ∀ property ∈ properties,
    Clear D g fact.generics property.type

theorem empty_inv (c : Context) : Inv c [] { graph := .empty } where
  tidy := by
    refine ⟨fun key id found => ?_, fun id node found => ?_, fun old new found => ?_⟩
    · simp [Graph.empty] at found
    · simp [Graph.empty] at found
    · simp [Graph.empty] at found
  stands place fact id _ found := by simp at found
  complete place fact id _ found := by simp at found

section
variable (settings : Settings) {facts : List Fact} (orderly : Orderly facts)
include orderly

theorem ingestion_fine : ∃ s, ingestion settings facts = (.ok (), s) ∧ Inv ⟨settings, facts⟩ [] s ∧
    ∀ place fact, facts[place]? = some fact → fact.properties?.isSome = true →
      ∃ id, s.built.get? place = some id := by
  obtain ⟨_, s, ran, -, inv, built⟩ :=
    @buildFacts_fine ⟨settings, facts⟩ { graph := .empty } orderly (empty_inv _)
  exact ⟨s, ran, inv, built⟩

/-- A record is built, with the properties whose types resolve. -/
theorem recordNames_iff {fact : Fact} (mem : fact ∈ facts) {properties : List PropertyFact}
    (isRecord : fact.properties? = some properties) :
    ∃ names, recordNames settings facts fact.name = some names ∧
      (Grounded (declared facts) fact →
        Unambiguous (declared facts) (Graph.empty.ingest settings facts).2 fact →
        ∀ name, name ∈ names ↔ ∃ property ∈ properties, property.name = name ∧
          Resolves (declared facts) nothing fact.generics property.type) := by
  obtain ⟨s, ran, inv, built⟩ := ingestion_fine settings orderly
  obtain ⟨place, found, there⟩ : ∃ place, facts.findIdx? (·.name == fact.name) = some place ∧
      facts[place]? = some fact := by
    cases found : facts.findIdx? (·.name == fact.name) with
    | none =>
      have nobody := List.findIdx?_eq_none_iff.mp found fact mem
      simp at nobody
    | some place =>
      obtain ⟨lt, same, -⟩ := List.findIdx?_eq_some_iff_getElem.mp found
      have isFact := orderly.injOn (List.getElem_mem lt) mem (by simpa using same)
      exact ⟨place, rfl, by rw [List.getElem?_eq_getElem lt, isFact]⟩
  obtain ⟨id, isBuilt⟩ := built place fact there (Option.isSome_of_eq_some isRecord)
  obtain ⟨node, own, generics, here, shape, names⟩ :=
    inv.complete place fact id there isBuilt List.not_mem_nil properties isRecord
  refine ⟨own.map Property.name, ?_, fun grounded unambiguous => ?_⟩
  · have isNode : s.graph.node? id = some node := by
      rw [node?, resolve_of_end (inv.tidy.no_redirect here (ne_classUnion_of_record shape))]
      exact here
    rw [recordNames, ran, found]
    simp [isBuilt, isNode, shape, propertyNames?]
  · rw [ingest_eq, ran] at unambiguous
    exact names grounded (unambiguous properties isRecord)

end

section order
variable {facts facts' : List Fact} (perm : facts.Perm facts')
include perm

theorem Orderly.of_perm (orderly : Orderly facts) : Orderly facts' where
  types fact mem := orderly.types fact (perm.mem_iff.mpr mem)
  names fact mem := orderly.names fact (perm.mem_iff.mpr mem)
  origins fact mem := orderly.origins fact (perm.mem_iff.mpr mem)
  distinct := (perm.map Fact.name).nodup_iff.mp orderly.distinct

theorem declared_of_perm : declared facts = declared facts' :=
  Set.ext fun _ => perm.mem_iff

/-- In every order of the declarations all records are built. The properties of a record do not
depend on the order, if none of them asks for a declaration that waits for the record and the graphs
settle what else they ask. -/
theorem recordNames_of_perm (settings : Settings) (orderly : Orderly facts) :
    (Graph.empty.ingest settings facts).1 = .ok () ∧
    (Graph.empty.ingest settings facts').1 = .ok () ∧
      ∀ fact ∈ facts, fact.properties?.isSome = true → ∃ names names',
        recordNames settings facts fact.name = some names ∧
        recordNames settings facts' fact.name = some names' ∧
        (Grounded (declared facts) fact →
          Unambiguous (declared facts) (Graph.empty.ingest settings facts).2 fact →
          Unambiguous (declared facts) (Graph.empty.ingest settings facts').2 fact →
          ∀ name, name ∈ names ↔ name ∈ names') := by
  have same := declared_of_perm perm
  have orderly' := orderly.of_perm perm
  obtain ⟨s, ran, -⟩ := ingestion_fine settings orderly
  obtain ⟨s', ran', -⟩ := ingestion_fine settings orderly'
  refine ⟨by rw [ingest_eq, ran], by rw [ingest_eq, ran'], fun fact mem isRecord => ?_⟩
  obtain ⟨properties, isRecord⟩ := Option.isSome_iff_exists.mp isRecord
  obtain ⟨names, found, all⟩ := recordNames_iff settings orderly mem isRecord
  obtain ⟨names', found', all'⟩ :=
    recordNames_iff settings orderly' (perm.mem_iff.mp mem) isRecord
  rw [← same] at all'
  refine ⟨names, names', found, found', fun grounded unambiguous unambiguous' name => ?_⟩
  rw [all grounded unambiguous, all' grounded unambiguous']

end order

/-- A record that refers to itself, to a pair of leaves, to a member of an enum and to a name that
is not declared. -/
def tree : List Fact := [
  .ofType "Node" (.object [{ name := "next", type := .named "Node" },
    { name := "pair", type := .named "Pair" },
    { name := "kind", type := .enumLiteral (some "Kind") "leaf" none },
    { name := "when", type := .named "Date" }] []),
  .ofType "Pair" (.tuple [.named "Leaf", .named "Leaf"]),
  .ofType "Leaf" (.object [{ name := "value", type := .primitive .string }] []),
  .ofType "Kind" (.enumeration [{ name := "leaf" }, { name := "branch" }])]

theorem tree_orderly : Orderly tree := ⟨by decide, by decide, by decide, by decide⟩

theorem tree_asks {fact : Fact} (mem : fact ∈ tree) {properties : List PropertyFact}
    (isRecord : fact.properties? = some properties) {property : PropertyFact}
    (inside : property ∈ properties)
    {question : Question} (asks : Asks (declared tree) fact.generics property.type question) :
    question ∈
      [.declaration "Node", .declaration "Pair", .literal (some "Kind") "leaf", .text "Date"] ∧
      fact.name = "Node" := by
  have distinct := tree_orderly.injOn
  simp only [tree, List.mem_cons, List.not_mem_nil, or_false] at mem
  obtain rfl | rfl | rfl | rfl := mem
  · cases isRecord
    simp only [List.mem_cons, List.not_mem_nil, or_false] at inside
    obtain rfl | rfl | rfl | rfl := inside
    · obtain rfl | ⟨_, ⟨⟩, -, asks⟩ := asks_declared distinct List.mem_cons_self rfl asks
      · simp [ofType]
      · cases asks
    · have second : ofType "Pair" (.tuple [.named "Leaf", .named "Leaf"]) ∈ declared tree :=
        List.mem_cons_of_mem _ List.mem_cons_self
      obtain rfl | ⟨_, ⟨⟩, -, asks⟩ := asks_declared distinct second rfl asks
      · simp [ofType]
      · cases asks
    · cases asks
      simp [ofType]
    · have undeclared : Undeclared (declared tree) "Date" := by
        change ∀ fact ∈ tree, fact.name ≠ "Date"
        decide
      obtain rfl | ⟨_, ⟨⟩, -⟩ := asks_undeclared undeclared asks
      simp [ofType]
  · cases isRecord
  · cases isRecord
    simp only [List.mem_cons, List.not_mem_nil, or_false] at inside
    subst inside
    cases asks
  · cases isRecord

/-- The pair needs its leaf first, but neither leads back. -/
theorem tree_grounded {fact : Fact} (mem : fact ∈ tree) : Grounded (declared tree) fact := by
  intro properties isRecord property inside _ name asks early
  obtain ⟨among, isNode⟩ := tree_asks mem isRecord inside asks
  rw [isNode] at early
  obtain ⟨first, ⟨other, there, -, refers⟩, path⟩ := early
  have toLeaf : ∀ fact ∈ tree, ∀ name ∈ fact.earlyNames, name = "Leaf" := by decide
  have atLeaf : ∀ fact ∈ tree, fact.name = "Leaf" → fact.names = [] := by decide
  rw [toLeaf other there first refers] at path
  obtain same | ⟨next, ⟨leaf, isThere, isLeaf, named⟩, -⟩ := path.cases_head
  · exact absurd same (by decide)
  · rw [atLeaf leaf isThere isLeaf] at named
    cases named

theorem tree_unambiguous {g : Graph} {kind : NodeId}
    (check : (List.range g.nodes.size).all (fun id => (g.nodes[id]?).all fun node =>
      node.name != "Date" && (!hasMember "leaf" node.shape || id == kind)) = true)
    {fact : Fact} (mem : fact ∈ tree) : Unambiguous (declared tree) g fact := by
  have each : ∀ (id : NodeId) (node : Node), g.nodes[id]? = some node →
      node.name ≠ "Date" ∧ (hasMember "leaf" node.shape = true → id = kind) := by
    intro id node there
    have lt := (Array.getElem?_eq_some_iff.mp there).1
    have here := List.all_eq_true.mp check id (List.mem_range.mpr lt)
    rw [there] at here
    simpa [← Bool.not_eq_true, ← imp_iff_not_or] using here
  have has : HasMember (declared tree) (some "Kind") "leaf" :=
    ⟨.ofType "Kind" (.enumeration [{ name := "leaf" }, { name := "branch" }]),
      by simp [declared, tree], rfl, _, _, rfl, rfl, by simp⟩
  have date : nameOfTypeText "Date" = "Date" := by decide +kernel
  intro properties isRecord property inside question asks
  obtain ⟨among, -⟩ := tree_asks mem isRecord inside asks
  simp only [List.mem_cons, List.not_mem_nil, or_false] at among
  obtain rfl | rfl | rfl | rfl := among
  · trivial
  · trivial
  · refine ⟨fun _ i j a b atI atJ hasA _ hasB _ => ?_, fun no => absurd has no⟩
    rw [(each i a atI).2 hasA, (each j b atJ).2 hasB]
  · intro id node there
    rw [date]
    exact (each id node there).1

theorem recordNames_of_perm_tree : Orderly tree ∧ ∃ fact ∈ tree, fact.name = "Node" ∧
    Grounded (declared tree) fact ∧
    Unambiguous (declared tree) (Graph.empty.ingest {} tree).2 fact ∧
    Unambiguous (declared tree) (Graph.empty.ingest {} tree.reverse).2 fact ∧
    ∃ names names', recordNames {} tree "Node" = some names ∧
      recordNames {} tree.reverse "Node" = some names' ∧ (∀ name, name ∈ names ↔ name ∈ names') ∧
      names = ["next", "pair", "kind"] := by
  have node : ∃ fact ∈ tree, fact.name = "Node" ∧ fact.properties?.isSome = true :=
    ⟨_, List.mem_cons_self, rfl, rfl⟩
  obtain ⟨fact, mem, named, isRecord⟩ := node
  have first : Unambiguous (declared tree) (Graph.empty.ingest {} tree).2 fact :=
    @tree_unambiguous _ 4 (by decide +kernel) fact mem
  have second : Unambiguous (declared tree) (Graph.empty.ingest {} tree.reverse).2 fact :=
    @tree_unambiguous _ 0 (by decide +kernel) fact mem
  have grounded := tree_grounded mem
  obtain ⟨-, -, all⟩ := recordNames_of_perm (List.reverse_perm tree).symm {} tree_orderly
  obtain ⟨names, names', found, found', same⟩ := all fact mem isRecord
  rw [named] at found found'
  have kept : recordNames {} tree "Node" = some ["next", "pair", "kind"] := by decide +kernel
  refine ⟨tree_orderly, fact, mem, named, grounded, first, second, names, names', found, found',
    same grounded first second, ?_⟩
  rw [found, Option.some_inj] at kept
  exact kept

/-- A record with one property and one other declaration, for which the order counts. -/
def besides (type other : TypeExpr) : List Fact :=
  [.ofType "Record" (.object [{ name := "property", type }] []), .ofType "Other" other]

/-- The tuple waits for the record. -/
def waiting : List Fact := besides (.named "Other") (.tuple [.named "Record"])

/-- The name is not declared, but a node may bear it. -/
def spelled : List Fact := besides (.named "Other[]") (.object [] [])

/-- The literal names no enum, so that any enum there is will do. -/
def unnamed : List Fact :=
  besides (.enumLiteral none "leaf" none) (.enumeration [{ name := "leaf" }])

theorem recordNames_reverse_besides :
    (Orderly waiting ∧ recordNames {} waiting "Record" = some ["property"] ∧
      recordNames {} waiting.reverse "Record" = some []) ∧
    (Orderly spelled ∧ recordNames {} spelled "Record" = some [] ∧
      recordNames {} spelled.reverse "Record" = some ["property"]) ∧
    (Orderly unnamed ∧ recordNames {} unnamed "Record" = some [] ∧
      recordNames {} unnamed.reverse "Record" = some ["property"]) := by
  refine ⟨⟨⟨?_, ?_, ?_, ?_⟩, ?_, ?_⟩, ⟨⟨?_, ?_, ?_, ?_⟩, ?_, ?_⟩, ⟨⟨?_, ?_, ?_, ?_⟩, ?_, ?_⟩⟩
  all_goals decide +kernel

end TypeLoom.Ingest
