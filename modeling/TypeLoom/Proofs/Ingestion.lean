import TypeLoom.Ingest.Declaration
import TypeLoom.Proofs.Registration
import TypeLoom.Proofs.Resolution

/-! What the steps of an ingest leave behind. Every step succeeds and only appends nodes, a record
under construction aside. The invariant says of each declaration built so far that its node is what
the declarations make it, so far as the graph settles the questions that they leave open. -/
namespace TypeLoom.Ingest
open TypeLoom.Graph TypeLoom.Fact

section ensures
variable {α β : Type} {s : State}

/-- The steps succeed from this state, with this outcome. -/
def Ensures (m : Ingest α) (s : State) (post : α → State → Prop) : Prop :=
  ∃ result s', m.run.run s = (.ok result, s') ∧ post result s'

theorem Ensures.pure {post : α → State → Prop} {result : α} (holds : post result s) :
    Ensures (pure result) s post := ⟨result, s, rfl, holds⟩

theorem Ensures.bind {m : Ingest α} {f : α → Ingest β} {mid : α → State → Prop}
    {post : β → State → Prop} (first : Ensures m s mid)
    (next : ∀ result s', mid result s' → Ensures (f result) s' post) :
    Ensures (m >>= f) s post := by
  obtain ⟨a, s₁, ran, holds⟩ := first
  obtain ⟨b, s₂, ran', holds'⟩ := next a s₁ holds
  refine ⟨b, s₂, ?_, holds'⟩
  rw [ExceptT.run_bind, StateT.run_bind, ran]
  exact ran'

theorem Ensures.mono {m : Ingest α} {post post' : α → State → Prop} (ensures : Ensures m s post)
    (weaker : ∀ result s', post result s' → post' result s') : Ensures m s post' := by
  obtain ⟨a, s', ran, holds⟩ := ensures
  exact ⟨a, s', ran, weaker a s' holds⟩

theorem Ensures.tryCatch {m : Ingest α} {handler : MissingIdentity → Ingest α}
    {post : α → State → Prop} (ensures : Ensures m s post) :
    Ensures (tryCatch m handler) s post := by
  obtain ⟨result, s', ran, holds⟩ := ensures
  refine ⟨result, s', ?_, holds⟩
  rw [ExceptT.run_tryCatch, StateT.run_bind, ran]
  rfl

end ensures

/-- Type declarations with names of their own that are not blank, and without origins. -/
structure Orderly (facts : List Fact) : Prop where
  types : ∀ fact ∈ facts, fact.isType = true
  names : ∀ fact ∈ facts, Text.isBlankText fact.name.toList = false
  origins : ∀ fact ∈ facts, fact.origin = none
  distinct : (facts.map Fact.name).Nodup

def declared (facts : List Fact) : Set Fact := {fact | fact ∈ facts}

/-- The node of a declaration is what the declaration makes it. -/
structure Stands (D : Set Fact) (g : Graph) (fact : Fact) (id : NodeId) : Prop where
  builds : ClearFact D g fact → Builds D nothing fact
  inside : fact.isImmediate = true → id < g.nodes.size
  members : ∀ names, fact.memberNames? = some names → ∃ node, g.nodes[id]? = some node ∧
    node.isCalled fact.name = true ∧ ∀ member ∈ names, hasMember member node.shape = true

/-- A record has the properties whose types resolve, if it is grounded and they ask nothing but what
is settled. -/
def Complete (D : Set Fact) (g : Graph) (fact : Fact) (id : NodeId) : Prop :=
  ∀ properties, fact.properties? = some properties → ∃ node own generics, g.nodes[id]? = some node ∧
    node.shape = .record own generics ∧
    (Grounded D fact → (∀ property ∈ properties, Clear D g fact.generics property.type) → ∀ name,
      name ∈ own.map Property.name ↔
        ∃ property ∈ properties, property.name = name ∧
          Resolves D nothing fact.generics property.type)

/-- Every declaration that is built has its node, and every record that is not pending is complete.
-/
structure Inv (c : Context) (pending : List Nat) (s : State) : Prop where
  tidy : s.graph.Tidy
  stands : ∀ place fact id, c.facts[place]? = some fact → s.built.get? place = some id →
    Stands (declared c.facts) s.graph fact id
  complete : ∀ place fact id, c.facts[place]? = some fact → s.built.get? place = some id →
    place ∉ pending → Complete (declared c.facts) s.graph fact id

/-- A later state. The node `own`, if given, may have another shape of the same kind. -/
structure Grows (c : Context) (own : Option NodeId) (s s' : State) : Prop where
  size : s.graph.nodes.size ≤ s'.graph.nodes.size
  nodes : ∀ id < s.graph.nodes.size, own ≠ some id → s'.graph.nodes[id]? = s.graph.nodes[id]?
  persists : Persists s.graph s'.graph
  built : ∀ place id, s.built.get? place = some id → s'.built.get? place = some id
  fresh : ∀ place fact id, c.facts[place]? = some fact → fact.isImmediate = true →
    s'.built.get? place = some id → s.built.get? place = some id ∨ s.graph.nodes.size ≤ id

/-- No node that is finished. -/
def Owned (c : Context) (pending : List Nat) (s : State) (id : NodeId) : Prop :=
  ∀ place fact, c.facts[place]? = some fact → s.built.get? place = some id →
    fact.memberNames? = none ∧ (fact.properties?.isSome → place ∈ pending)

namespace Grows
variable {c : Context} {own : Option NodeId} {s s' s'' : State}

theorem refl (c : Context) (own : Option NodeId) (s : State) : Grows c own s s where
  size := le_rfl
  nodes _ _ _ := rfl
  persists _ node there := ⟨node, there, .refl node⟩
  built _ _ found := found
  fresh _ _ _ _ _ found := .inl found

theorem trans (first : Grows c own s s') (second : Grows c own s' s'') : Grows c own s s'' where
  size := first.size.trans second.size
  nodes id lt other :=
    (second.nodes id (lt.trans_le first.size) other).trans (first.nodes id lt other)
  persists id node there := by
    obtain ⟨node', there', alike⟩ := first.persists id node there
    obtain ⟨node'', there'', alike'⟩ := second.persists id node' there'
    exact ⟨node'', there'', alike.trans alike'⟩
  built place id found := second.built place id (first.built place id found)
  fresh place fact id there owns found := by
    obtain before | late := second.fresh place fact id there owns found
    · exact first.fresh place fact id there owns before
    · exact .inr (first.size.trans late)

theorem weaken (grows : Grows c none s s') : Grows c own s s' where
  size := grows.size
  nodes id lt _ := grows.nodes id lt nofun
  persists := grows.persists
  built := grows.built
  fresh := grows.fresh

theorem forget {id : NodeId} (grows : Grows c (some id) s s') (late : s.graph.nodes.size ≤ id) :
    Grows c own s s' where
  size := grows.size
  nodes other lt _ := grows.nodes other lt (by rintro ⟨⟩; omega)
  persists := grows.persists
  built := grows.built
  fresh := grows.fresh

theorem of_graph {g' : Graph} (size : s.graph.nodes.size ≤ g'.nodes.size)
    (nodes : ∀ id < s.graph.nodes.size, own ≠ some id → g'.nodes[id]? = s.graph.nodes[id]?)
    (persists : Persists s.graph g') : Grows c own s { s with graph := g' } where
  size := size
  nodes := nodes
  persists := persists
  built _ _ found := found
  fresh _ _ _ _ _ found := .inl found

end Grows

theorem persists_of_adds {g g' : Graph} (adds : Adds g g') : Persists g g' := by
  intro id node there
  have lt := (Array.getElem?_eq_some_iff.mp there).1
  exact ⟨node, (adds.nodes id lt).trans there, .refl node⟩

theorem Grows.of_adds {c : Context} {own : Option NodeId} {s : State} {g' : Graph}
    (adds : Adds s.graph g') : Grows c own s { s with graph := g' } :=
  .of_graph adds.size (fun id lt _ => adds.nodes id lt) (persists_of_adds adds)

theorem Stands.later {D : Set Fact} {g g' : Graph} {fact : Fact} {id : NodeId}
    (stands : Stands D g fact id) (size : g.nodes.size ≤ g'.nodes.size) (persists : Persists g g')
    (same : fact.memberNames?.isSome → g'.nodes[id]? = g.nodes[id]?) : Stands D g' fact id where
  builds clear := stands.builds (clear.earlier persists)
  inside owns := (stands.inside owns).trans_le size
  members names found := by
    rw [same (Option.isSome_of_eq_some found)]
    exact stands.members names found

theorem Complete.later {D : Set Fact} {g g' : Graph} {fact : Fact} {id : NodeId}
    (complete : Complete D g fact id) (persists : Persists g g')
    (same : fact.properties?.isSome → g'.nodes[id]? = g.nodes[id]?) : Complete D g' fact id := by
  intro properties found
  obtain ⟨node, own, generics, there, shape, names⟩ := complete properties found
  rw [same (Option.isSome_of_eq_some found)]
  exact ⟨node, own, generics, there, shape,
    fun grounded clear => names grounded fun property mem => (clear property mem).earlier persists⟩

/-- The invariant outlasts changes to nodes that nothing finished has. -/
theorem Inv.later {c : Context} {pending : List Nat} {s : State} (inv : Inv c pending s)
    {g' : Graph}
    {own : Option NodeId} (tidy : g'.Tidy) (grows : Grows c own s { s with graph := g' })
    (owned : ∀ id, own = some id → Owned c pending s id) :
    Inv c pending { s with graph := g' } where
  tidy := tidy
  stands place fact id there found := by
    have stands := inv.stands place fact id there found
    refine stands.later grows.size grows.persists fun isEnum => ?_
    refine grows.nodes id (stands.inside (isImmediate_of_memberNames isEnum)) fun isOwn => ?_
    rw [(owned id isOwn place fact there found).1] at isEnum
    cases isEnum
  complete place fact id there found done := by
    have stands := inv.stands place fact id there found
    refine (inv.complete place fact id there found done).later grows.persists fun isRecord => ?_
    refine grows.nodes id (stands.inside (isImmediate_of_properties isRecord)) fun isOwn => ?_
    exact done ((owned id isOwn place fact there found).2 isRecord)

theorem Inv.of_adds {c : Context} {pending : List Nat} {s : State} (inv : Inv c pending s)
    {g' : Graph} (adds : Adds s.graph g') : Inv c pending { s with graph := g' } :=
  inv.later (adds.tidy inv.tidy) (@Grows.of_adds c none s g' adds) nofun

theorem Owned.later {c : Context} {pending : List Nat} {own : Option NodeId} {s s' : State}
    {id : NodeId}
    (owned : Owned c pending s id) (inside : id < s.graph.nodes.size) (grows : Grows c own s s') :
    Owned c pending s' id := by
  intro place fact there found
  by_cases immediate : fact.isImmediate = true
  · obtain before | late := grows.fresh place fact id there immediate found
    · exact owned place fact there before
    · exact absurd inside (not_lt.mpr late)
  · obtain ⟨noRecord, noEnum⟩ := isImmediate_eq_false.mp (Bool.eq_false_of_not_eq_true immediate)
    exact ⟨noEnum, by simp [noRecord]⟩

theorem Inv.owned_new {c : Context} {pending : List Nat} {s : State} {id : NodeId}
    (inv : Inv c pending s) (late : s.graph.nodes.size ≤ id) : Owned c pending s id := by
  intro place fact there found
  by_cases immediate : fact.isImmediate = true
  · exact absurd ((inv.stands place fact id there found).inside immediate) (not_lt.mpr late)
  · obtain ⟨noRecord, noEnum⟩ := isImmediate_eq_false.mp (Bool.eq_false_of_not_eq_true immediate)
    exact ⟨noEnum, by simp [noRecord]⟩

/-- The steps succeed and keep the invariant. -/
def Fine {α : Type} (c : Context) (pending : List Nat) (own : Option NodeId) (m : Ingest α)
    (s : State) (post : α → State → Prop) : Prop :=
  Ensures m s fun result s' => Grows c own s s' ∧ Inv c pending s' ∧ post result s'

section fine
variable {α β : Type} {c : Context} {pending : List Nat} {own : Option NodeId} {s : State}

namespace Fine

theorem pure {post : α → State → Prop} {result : α} (inv : Inv c pending s)
    (holds : post result s) :
    Fine c pending own (pure result) s post := Ensures.pure ⟨.refl c own s, inv, holds⟩

theorem bind {m : Ingest α} {f : α → Ingest β} {mid : α → State → Prop} {post : β → State → Prop}
    (first : Fine c pending own m s mid)
    (next : ∀ result s', Grows c own s s' → Inv c pending s' → mid result s' →
      Fine c pending own (f result) s' post) : Fine c pending own (m >>= f) s post := by
  refine Ensures.bind first fun result s' ⟨grows, inv, holds⟩ => ?_
  refine Ensures.mono (next result s' grows inv holds) fun _ _ ⟨more, inv', holds'⟩ => ?_
  exact ⟨grows.trans more, inv', holds'⟩

theorem mono {m : Ingest α} {post post' : α → State → Prop} (fine : Fine c pending own m s post)
    (weaker : ∀ result s', Grows c own s s' → post result s' → post' result s') :
    Fine c pending own m s post' :=
  Ensures.mono fine fun result s' ⟨grows, inv, holds⟩ => ⟨grows, inv, weaker result s' grows holds⟩

theorem before {m : Ingest α} {f : α → Ingest β} {mid : α → State → Prop} {post : β → State → Prop}
    (first : Fine c pending none m s mid)
    (next : ∀ result s', Grows c none s s' → Inv c pending s' → mid result s' →
      Fine c pending own (f result) s' post) : Fine c pending own (m >>= f) s post := by
  refine Ensures.bind first fun result s' ⟨grows, inv, holds⟩ => ?_
  refine Ensures.mono (next result s' grows inv holds) fun _ _ ⟨more, inv', holds'⟩ => ?_
  exact ⟨grows.weaken.trans more, inv', holds'⟩

theorem make {m : Ingest NodeId} {f : NodeId → Ingest β} {mid : NodeId → State → Prop}
    {post : β → State → Prop} (inv : Inv c pending s)
    (made : Fine c pending none m s fun id s' =>
      id = s.graph.nodes.size ∧ s'.built = s.built ∧ mid id s')
    (next : ∀ id s', Grows c none s s' → Inv c pending s' → Owned c pending s' id → mid id s' →
      Fine c pending (some id) (f id) s' post) : Fine c pending none (m >>= f) s post := by
  refine Ensures.bind made fun id s' ⟨grows, inv', new, same, holds⟩ => ?_
  have owned : Owned c pending s' id := by
    intro place fact there found
    rw [same] at found
    exact inv.owned_new new.ge place fact there found
  refine Ensures.mono (next id s' grows inv' owned holds) fun _ _ ⟨more, inv'', holds'⟩ => ?_
  exact ⟨(grows.weaken.trans more).forget new.ge, inv'', holds'⟩

theorem map {m : Ingest α} {f : α → β} {post : β → State → Prop}
    (fine : Fine c pending own m s fun result s' => post (f result) s') :
    Fine c pending own (f <$> m) s post := by
  rw [map_eq_pure_bind]
  exact fine.bind fun _ _ _ inv holds => .pure inv holds

theorem discard {m : Ingest α} {post : PUnit → State → Prop}
    (fine : Fine c pending own m s fun _ s' => post ⟨⟩ s') :
    Fine c pending own (discard m) s post :=
  map fine

/-- The invariant `keep` of a loop is about what is left to do. -/
theorem forIn {xs : List α} {body : α → PUnit → Ingest (ForInStep PUnit)}
    (keep : List α → State → Prop) (inv : Inv c pending s) (holds : keep xs s)
    (each : ∀ x rest s', Grows c own s s' → Inv c pending s' → keep (x :: rest) s' →
      Fine c pending own (body x ⟨⟩) s' fun step s'' => step = .yield ⟨⟩ ∧ keep rest s'') :
    Fine c pending own (forIn xs PUnit.unit body) s fun _ s' => keep [] s' := by
  induction xs generalizing s with
  | nil => exact .pure inv holds
  | cons x rest ih =>
    rw [List.forIn_cons]
    refine (each x rest s (.refl c own s) inv holds).bind
      fun step s' grows inv' ⟨yields, holds'⟩ => ?_
    subst yields
    exact ih inv' holds' fun y more s'' later => each y more s'' (grows.trans later)

theorem modifyGraph {f : Graph → Graph} (grows : Grows c own s { s with graph := f s.graph })
    (inv : Inv c pending { s with graph := f s.graph }) :
    Fine c pending own (modifyGraph f) s fun _ s' => s' = { s with graph := f s.graph } :=
  ⟨(), _, rfl, grows, inv, rfl⟩

theorem withGraph {f : Graph → α × Graph} (inv : Inv c pending s)
    (adds : Adds s.graph (f s.graph).2) : Fine c pending own (withGraph f) s fun result s' =>
      result = (f s.graph).1 ∧ s' = { s with graph := (f s.graph).2 } :=
  ⟨_, _, rfl, .of_adds adds, inv.of_adds adds, rfl, rfl⟩

theorem tryGraph {f : Graph → Except MissingIdentity (α × Graph)} {result : α} {g' : Graph}
    (inv : Inv c pending s) (done : f s.graph = .ok (result, g')) (adds : Adds s.graph g') :
    Fine c pending own (tryGraph f) s fun given s' => given = result ∧
      s' = { s with graph := g' } := by
  exact ⟨result, { s with graph := g' }, run_tryGraph_ok done, .of_adds adds, inv.of_adds adds, rfl,
    rfl⟩

theorem getGraph (inv : Inv c pending s) :
    Fine c pending own getGraph s fun g s' => g = s.graph ∧ s = s' :=
  ⟨_, _, rfl, .refl c own s, inv, rfl, rfl⟩

end Fine

theorem report_fine (inv : Inv c pending s) (kind : Finding.Kind) (subject message : String) :
    Fine c pending own (report kind subject message) s
      fun _ s' => s'.graph.nodes = s.graph.nodes := by
  have adds := report_adds s.graph kind subject message
  exact (Fine.modifyGraph (.of_adds adds) (inv.of_adds adds)).mono fun _ _ _ same => by
    rw [same]; rfl

theorem primitiveUse_fine (inv : Inv c pending s) (kind : Primitive) :
    Fine c pending own (primitiveUse kind) s fun use _ => ∃ id, use = .ofNode id :=
  (Fine.withGraph inv (primitive_adds s.graph kind)).bind fun id _ _ inv' _ => .pure inv' ⟨id, rfl⟩

theorem orObject_fine (inv : Inv c pending s) (found : Option Resolved) :
    Fine c pending own (orObject found) s fun _ _ => True := by
  cases found with
  | none => exact (primitiveUse_fine inv .object).mono fun _ _ _ _ => trivial
  | some resolved => exact .pure inv trivial

theorem register_fine (inv : Inv c pending s) {node : Node} (named : node.shape.isNamed = true)
    (name : Text.isBlankText node.name.toList = false) (origin : node.origin = none)
    (other : ∀ shape, sameUnion node.shape shape = false) :
    Fine c pending own (tryGraph (·.register node)) s fun id s' => id = s.graph.nodes.size ∧
      s'.built = s.built ∧ ∃ placed, s'.graph.nodes[id]? = some placed ∧ placed.shape = node.shape ∧
        placed.givenName = node.givenName := by
  obtain ⟨g', placed, done, adds, nodes, shape, given⟩ :=
    register_fresh inv.tidy named name origin other
  refine (Fine.tryGraph inv done adds).mono ?_
  rintro _ _ - ⟨rfl, rfl⟩
  refine ⟨rfl, rfl, placed, ?_, shape, given⟩
  rw [nodes, Array.getElem?_push_size]

theorem registerNamed_fine (orderly : Orderly c.facts) (inv : Inv c pending s) {fact : Fact}
    (mem : fact ∈ c.facts) {shape : Shape} (named : shape.isNamed = true)
    (other : ∀ taken, sameUnion shape taken = false) :
    Fine c pending own (registerNamed fact shape) s fun id s' => id = s.graph.nodes.size ∧
      s'.built = s.built ∧ ∃ placed, s'.graph.nodes[id]? = some placed ∧ placed.shape = shape ∧
        placed.givenName = fact.name :=
  register_fine inv named (orderly.names fact mem) (orderly.origins fact mem) other

theorem registerAnonymous_fine (inv : Inv c pending s) (stem : String) {suffix : String}
    (visible : Text.isBlankText suffix.toList = false) {shape : Shape}
    (named : shape.isNamed = true) (other : ∀ taken, sameUnion shape taken = false) (level : Nat) :
    Fine c pending own (registerAnonymous (stem ++ suffix) shape level) s fun id s' =>
      id = s.graph.nodes.size ∧ s'.built = s.built ∧
        ∃ placed, s'.graph.nodes[id]? = some placed ∧ placed.shape = shape := by
  have name : Text.isBlankText (stem ++ suffix).toList = false := by
    rw [isBlankText_append, visible, Bool.and_false]
  rw [registerAnonymous]
  refine Fine.mono (register_fine inv named name rfl other)
    fun id s' _ ⟨size, same, placed, there, shape, _⟩ => ?_
  exact ⟨size, same, placed, there, shape⟩

/-- Changes of a shape that no lookup notices. -/
def Steady (f : Shape → Shape) : Prop :=
  ∀ shape, (f shape).label = shape.label ∧
    ∀ member, hasMember member (f shape) = hasMember member shape

theorem steady_addProperty (property : Property) : Steady (Shape.addProperty · property) := by
  intro shape
  cases shape with
  | record own generics =>
    dsimp only [Shape.addProperty]
    split <;> exact ⟨rfl, fun _ => rfl⟩
  | _ => exact ⟨rfl, fun _ => rfl⟩

theorem steady_addParameter (parameter : Parameter) : Steady (Shape.addParameter · parameter) := by
  intro shape
  dsimp only
  rw [Shape.addParameter]
  split
  · exact ⟨rfl, fun _ => rfl⟩
  · cases shape <;> exact ⟨rfl, fun _ => rfl⟩

theorem steady_setDictionaryValue (value : TypeUse) : Steady (setDictionaryValue value) := by
  intro shape
  cases shape <;> exact ⟨rfl, fun _ => rfl⟩

theorem modifyShape_fine (inv : Inv c pending s) {id : NodeId} (owned : Owned c pending s id)
    {node : Node}
    (there : s.graph.nodes[id]? = some node) (solid : ∀ arity, node.shape ≠ .classUnion arity)
    {f : Shape → Shape} (steady : Steady f) :
    Fine c pending (some id) (modifyGraph (·.modifyShape id f)) s fun _ s' =>
      s'.graph.nodes[id]? = some { node with shape := f node.shape } := by
  have nodes := modifyShape_nodes inv.tidy there solid f
  have grows : Grows c (some id) s { s with graph := s.graph.modifyShape id f } := by
    refine .of_graph ?_ (fun other _ ne => ?_) (fun other before found => ?_)
    · simp [Graph.modifyShape, Graph.modifyNode, touch]
    · rw [nodes, if_neg fun same => ne (congrArg some same)]
    · rw [nodes]
      split_ifs with same
      · rw [← same, there, Option.some_inj] at found
        subst found
        exact ⟨_, rfl, rfl, rfl, (steady node.shape).1, (steady node.shape).2⟩
      · exact ⟨before, found, .refl before⟩
  have tidy := modifyShape_tidy inv.tidy id fun shape => (steady shape).1
  refine (Fine.modifyGraph grows (inv.later tidy grows ?_)).mono fun _ s' _ same => ?_
  · rintro _ ⟨⟩
    exact owned
  · rw [same, nodes, if_pos rfl]

end fine

section lookups
variable {g : Graph}

theorem findByTypeText_eq_none {text : String} (unnamed : ∀ (id : NodeId) (node : Node),
    g.nodes[id]? = some node → node.name ≠ nameOfTypeText text) : g.findByTypeText text = none := by
  have byTable : g.liveByName (nameOfTypeText text) = none := by
    rw [liveByName]
    cases g.names.get? (nameOfTypeText text) with
    | none => rfl
    | some id =>
      cases found : g.nodes[id]? with
      | none => simp [found]
      | some node => simp [found, unnamed id node found]
  have bySearch : g.liveNodes.find? (fun entry => entry.2.name == nameOfTypeText text) = none := by
    rw [List.find?_eq_none]
    rintro ⟨id, node⟩ mem
    simpa using unnamed id node (mem_liveNodes.mp mem).2
  have byName : g.findByName (nameOfTypeText text) = none := by
    rw [findByName, byTable]
    exact congrArg (Option.map Prod.fst) bySearch
  rw [findByTypeText, byName]
  exact ite_self none

theorem findUnion_eq_none {member : String} (absent : ∀ (id : NodeId) (node : Node),
    g.nodes[id]? = some node → hasMember member node.shape = false) (hint : Option String) :
    (g.findUnion member hint).1 = none := by
  have nobody : g.unionsWith member = [] := by
    rw [unionsWith, List.filter_eq_nil_iff]
    rintro ⟨id, node⟩ mem
    simp [absent id node (mem_liveNodes.mp mem).2]
  rw [findUnion, nobody]
  rfl

theorem findUnion_eq_some {member : String} {hint : Option String} {id : NodeId} {node : Node}
    (live : g.isLive id = true) (there : g.nodes[id]? = some node)
    (has : hasMember member node.shape = true) (called : hint.any node.isCalled = true)
    (unique : ∀ (other : NodeId) (taken : Node), g.nodes[other]? = some taken →
      hasMember member taken.shape = true → hint.any taken.isCalled = true → other = id) :
    (g.findUnion member hint).1 = some id := by
  have found :
      (g.unionsWith member).filter (fun entry => hint.any entry.2.isCalled) = [(id, node)] := by
    have nodup : ((g.unionsWith member).filter fun entry => hint.any entry.2.isCalled).Nodup :=
      ((liveNodes_nodup g).filter _).filter _
    rw [← List.perm_singleton, List.perm_ext_iff_of_nodup nodup (List.nodup_singleton _)]
    rintro ⟨other, taken⟩
    rw [List.mem_singleton, List.mem_filter, unionsWith, List.mem_filter, mem_liveNodes]
    constructor
    · rintro ⟨⟨⟨-, there'⟩, has'⟩, called'⟩
      have same := unique other taken there' has' called'
      subst same
      rw [there, Option.some_inj] at there'
      rw [there']
    · rintro ⟨⟩
      exact ⟨⟨⟨live, there⟩, has⟩, called⟩
  rw [findUnion]
  dsimp only
  rw [found]

end lookups

end TypeLoom.Ingest
