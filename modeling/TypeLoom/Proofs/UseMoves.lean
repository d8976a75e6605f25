import TypeLoom.Proofs.Calm

/-! Types at the places of their use, as chains of moves. A type use is in scope where it is made,
and what can be told of it beforehand, as whether it admits null, is true. -/
namespace TypeLoom

namespace Ingest
open TypeLoom.Graph TypeLoom.Fact Relation

/-! ### Records under construction -/

/-- What is made while a record is under construction. The record is closed in the end, or else
abandoned for want of a name. -/
theorem Calm.framed {α : Type} {c : Context} {frames : List Frame} {pending : List Nat}
    {s s₁ : State} {frame : Frame} {m inner : Ingest α} {mid post : α → State → Prop}
    (same : m.run.run s = inner.run.run s₁) (opens : Moves c ⟨frames, s⟩ ⟨frame :: frames, s₁⟩)
    (keeps : ∀ place ∈ pending, s₁.built.get? place = s.built.get? place)
    (calm : Calm c (frame :: frames) pending inner s₁ mid)
    (close : ∀ result s', Reaches c (frame :: frames) pending s₁ s' → mid result s' →
      Move c ⟨frame :: frames, s'⟩ ⟨frames, s'⟩ ∧ post result s') :
    Calm c frames pending m s post := by
  obtain ⟨reaches, holds, fails⟩ := calm
  unfold Calm
  rw [same]
  generalize inner.run.run s₁ = outcome at reaches holds fails ⊢
  obtain ⟨result, s'⟩ := outcome
  have kept (place : Nat) (member : place ∈ pending) :
      s'.built.get? place = s.built.get? place :=
    (reaches.pending place member).trans (keeps place member)
  have moves := ReflTransGen.trans opens reaches.moves
  cases result with
  | error e =>
    have nameless := fails e rfl
    refine ⟨⟨moves.tail (.abandon nameless), kept⟩, fun _ same => ?_, fun _ _ => nameless⟩
    cases same
  | ok a =>
    obtain ⟨move, outcome⟩ := close a s' reaches (holds a rfl)
    refine ⟨⟨moves.tail move, kept⟩, fun other same => ?_, fun _ same => by cases same⟩
    cases same
    exact outcome

theorem run_bind_ok {α β : Type} {m : Ingest α} {f : α → Ingest β} {s s' : State} {result : α}
    (ran : m.run.run s = (.ok result, s')) : (m >>= f).run.run s = (f result).run.run s' := by
  rw [ExceptT.run_bind, StateT.run_bind, ran]
  rfl

section records
variable {c : Context} {frames : List Frame} {pending : List Nat} {s : State} (valid : Valid c s)
include valid

theorem node?_eq (id : NodeId) : s.graph.node? id = s.graph.nodes[id]? := by
  rw [node?, valid.graph.resolve_eq]

theorem reshape_getElem? (id other : NodeId) (f : Shape → Shape) :
    (s.graph.modifyShape id f).nodes[other]? = if id = other
      then (s.graph.nodes[other]?).map fun n => { n with shape := f n.shape }
      else s.graph.nodes[other]? := by
  rw [modifyShape_getElem?, valid.graph.resolve_eq]

/-- The parameters of an inline record, once it is closed. -/
def Taken (s : State) (id : NodeId) (generics : List String) : Prop :=
  ∀ node, s.graph.nodes[id]? = some node → ∀ property ∈ node.shape.properties,
    ∀ name ∈ generics, property.type.mentions name = true → name ∈ node.shape.parameterNames

omit valid in
theorem mem_addParameter (shape : Shape) (record : shape.isRecord = true) (parameter : Parameter) :
    parameter.name ∈ (shape.addParameter parameter).parameterNames := by
  rw [Shape.addParameter]
  split
  · rename_i known
    obtain ⟨other, listed, same⟩ := List.any_eq_true.mp known
    exact List.mem_map.mpr ⟨other, listed, of_decide_eq_true same⟩
  · cases shape with
    | record properties generics =>
      simp [Shape.withGenerics, Shape.parameterNames, Shape.generics]
    | _ => cases record

/-- A node with these properties and with type parameters of these names, perhaps among others. -/
def Offers (g : Graph) (id : NodeId) (properties : List Property) (names : List String) : Prop :=
  ∃ node, g.nodes[id]? = some node ∧ node.shape.properties = properties ∧
    ∀ name ∈ names, name ∈ node.shape.parameterNames

omit valid in
theorem properties_addParameter (shape : Shape) (parameter : Parameter) :
    (shape.addParameter parameter).properties = shape.properties := by
  rw [Shape.addParameter]
  split
  · rfl
  · cases shape <;> rfl

theorem takeAll_calm {frame : Frame} (current : frame ∈ frames) (inline : frame.place = none)
    {properties : List Property} (offers : Offers s.graph frame.id properties [])
    {names : List String} (mentioned : ∀ name ∈ names, ∃ property ∈ properties,
      property.type.mentions name = true) :
    Calm c frames pending (forIn names PUnit.unit fun name _ => do
        modifyGraph (·.addParameter frame.id ⟨name, none⟩)
        return .yield PUnit.unit) s
      fun _ s' => Offers s'.graph frame.id properties names := by
  refine .loop (fun done s' => Offers s'.graph frame.id properties done) valid offers ?_
  intro before name after s₁ split valid₁ known
  obtain ⟨node, found, rfl, taken⟩ := known
  obtain ⟨property, own, mentions⟩ :=
    mentioned name (split ▸ List.mem_append_right _ List.mem_cons_self)
  have here : (s₁.graph.addParameter frame.id ⟨name, none⟩).nodes[frame.id]? =
      some { node with shape := node.shape.addParameter ⟨name, none⟩ } := by
    rw [Graph.addParameter, reshape_getElem? valid₁, if_pos rfl, found]
    rfl
  have outcome : Offers (s₁.graph.addParameter frame.id ⟨name, none⟩) frame.id
      node.shape.properties (before ++ [name]) := by
    refine ⟨_, here, properties_addParameter _ _, fun other member => ?_⟩
    rcases List.mem_append.mp member with old | last
    · exact (node.shape.grows_addParameter _).generics (taken other old)
    · rw [List.mem_singleton.mp last]
      exact mem_addParameter node.shape (Shape.isRecord_of_mem own) ⟨name, none⟩
  have step : Calm c frames pending (modifyGraph (·.addParameter frame.id ⟨name, none⟩)) s₁
      fun _ s₂ => Offers s₂.graph frame.id node.shape.properties (before ++ [name]) :=
    .modifyGraph (.single (.take current inline found own mentions)) outcome
  exact step.bind valid₁ fun _ _ _ _ outcome => .pure ⟨rfl, outcome⟩

theorem closeRecord_calm {frame : Frame} (current : frame ∈ frames) (inline : frame.place = none)
    (inside : frame.id < s.graph.nodes.size) (generics : List String) :
    Calm c frames pending (closeRecord frame.id generics) s fun use s' =>
      (∃ used : List String, use = ⟨.node frame.id, 0, used.map .ofGeneric⟩ ∧
        ∀ name ∈ used, name ∈ generics) ∧ Taken s' frame.id generics := by
  have found := Array.getElem?_eq_getElem inside
  generalize s.graph.nodes[frame.id] = node at found
  rw [closeRecord]
  refine .getGraph_bind ?_
  dsimp only
  rw [node?_eq valid, found, Option.map_some, Option.getD_some]
  have listed : ∀ name, name ∈ usedGenerics generics node.shape ↔
      name ∈ generics ∧ ∃ property ∈ node.shape.properties, property.type.mentions name = true := by
    intro name
    cases node.shape <;> simp [usedGenerics, Shape.properties]
  refine (takeAll_calm valid current inline ⟨node, found, rfl, fun _ member => by cases member⟩
    fun name used => ((listed name).mp used).2).bind valid fun _ s₁ _ _ outcome => .pure ?_
  obtain ⟨node₁, found₁, properties, taken⟩ := outcome
  refine ⟨⟨_, rfl, fun name used => ((listed name).mp used).1⟩, fun other there => ?_⟩
  rw [found₁, Option.some_inj] at there
  subst there
  intro property own name known mentions
  rw [properties] at own
  exact taken name ((listed name).mpr ⟨known, property, own, mentions⟩)

theorem openRecord_moves {name : String} (madeUp : MadeUp name) {body : ObjectBody}
    (known : c.HasBody body) (level : Nat) :
    ∃ id g, (openRecord name level).run.run s = (.ok id, { s with graph := g }) ∧
      Moves c ⟨frames, s⟩ ⟨⟨id, none, body⟩ :: frames, { s with graph := g }⟩ ∧
      id < g.nodes.size ∧
      (¬ c.Clashes → ∃ node, g.nodes[id]? = some node ∧ node.shape.isRecord = true) := by
  obtain ⟨id, g₁, g, ran, aside, nodes, outcome⟩ := @registerAnonymous_cases c s valid name madeUp
    (.record [] []) rfl (fun _ member => by cases member) level
  have first : Moves c ⟨frames, s⟩ ⟨frames, { s with graph := g₁ }⟩ := .single (.aside aside)
  refine ⟨id, g, ran, ?_⟩
  rw [← nodes] at outcome
  obtain ⟨clash, rfl, lt⟩ | ⟨node, nameless, shape, rfl, rfl⟩ := outcome
  · exact ⟨first.tail (.mistake clash lt), lt, fun apart => absurd clash apart⟩
  · have found : (g₁.push node).2.nodes[g₁.nodes.size]? = some node := Array.getElem?_push_size
    exact ⟨first.tail (.start nameless shape known), (Array.getElem?_eq_some_iff.mp found).1,
      fun _ => ⟨node, found, by rw [shape]; rfl⟩⟩

theorem inlineRecord_calm {name : String} (madeUp : MadeUp name) (scope : Scope)
    {properties : List PropertyFact} (known : c.HasBody ⟨name, scope.generics, properties⟩)
    {add : NodeId → Scope → Ingest Unit}
    (adds : ∀ (id : NodeId) (frames' : List Frame) (s' : State), Valid c s' →
      id < s'.graph.nodes.size → ⟨id, none, ⟨name, scope.generics, properties⟩⟩ ∈ frames' →
      Calm c frames' pending (add id (scope.nested name)) s' fun _ s'' =>
        ∀ fact ∈ properties, Treated s''.graph id name fact) :
    Calm c frames pending (inlineRecord name scope add) s fun use s' =>
      (∃ id, use.target = .node id) ∧ InScope c s' scope.generics use := by
  obtain ⟨id, g, ran, opens, inside, isRecord⟩ :=
    openRecord_moves valid madeUp known (scope.level + 1)
  have valid₁ : Valid c { s with graph := g } := opens.valid valid
  have filled : Calm c (⟨id, none, ⟨name, scope.generics, properties⟩⟩ :: frames) pending
      (do add id (scope.nested name); closeRecord id scope.generics) { s with graph := g }
      fun use s' => (∀ fact ∈ properties, Treated s'.graph id name fact) ∧
        (∃ used : List String, use = ⟨.node id, 0, used.map .ofGeneric⟩ ∧
          ∀ name ∈ used, name ∈ scope.generics) ∧ Taken s' id scope.generics := by
    refine (adds id _ _ valid₁ inside List.mem_cons_self).bind valid₁
      fun _ s₂ reaches valid₂ treated => ?_
    refine (closeRecord_calm valid₂ List.mem_cons_self rfl ((reaches.later valid₁).inside inside)
      scope.generics).mono fun use s₃ after outcome => ⟨fun fact listed => ?_, outcome⟩
    exact (treated fact listed).later (after.later valid₂)
  refine .framed (run_bind_ok ran) opens (fun _ _ => rfl) filled fun use s' reaches outcome => ?_
  obtain ⟨treated, ⟨used, rfl, generic⟩, taken⟩ := outcome
  have later := reaches.later valid₁
  refine ⟨.close treated fun _ => taken, ⟨id, rfl⟩,
    .node (later.inside inside) (fun apart _ other occurs => ?_) fun u listed => ?_⟩
  · obtain ⟨node, found, record⟩ := isRecord apart
    obtain ⟨shape, found', grows, -⟩ := later.nodes id node found
    refine (sealed_of_not_inline found' ?_).2 apart other occurs
    have still := (Shape.isRecord_of_label grows.label).trans record
    rw [Node.isInline]
    revert still
    cases shape <;> simp [Shape.isRecord, Shape.isInline]
  · obtain ⟨other, member, rfl⟩ := List.mem_map.mp listed
    exact .ofGeneric (generic other member)

omit valid in
theorem mem_addProperty (shape : Shape) (record : shape.isRecord = true) (property : Property) :
    ∃ own ∈ (shape.addProperty property).properties, own.name = property.name := by
  cases shape with
  | record properties generics =>
    dsimp only [Shape.addProperty]
    split
    · rename_i known
      obtain ⟨own, listed, same⟩ := List.any_eq_true.mp known
      exact ⟨own, listed, of_decide_eq_true same⟩
    · exact ⟨property, List.mem_append_right _ List.mem_cons_self, rfl⟩
  | _ => cases record

theorem addProperty_calm {frame : Frame} (current : frame ∈ frames)
    (inside : frame.id < s.graph.nodes.size) {before after : List PropertyFact}
    {fact : PropertyFact} (split : frame.body.properties = before ++ fact :: after)
    (treated : ∀ earlier ∈ before, Treated s.graph frame.id frame.body.subject earlier)
    (provided : frame.place.isSome = true → Provides s.graph frame.id frame.body.generics)
    {resolved : Resolved} (inScope : InScope c s frame.body.generics resolved.type)
    (nullable : resolved.nullable = (traits c frame.body.generics fact.type).nullable)
    (subject : String) :
    Calm c frames pending (addProperty frame.id subject fact resolved) s fun _ s' =>
      Treated s'.graph frame.id frame.body.subject fact := by
  have last {s₁ : State} (valid₁ : Valid c s₁) (later : Later c s s₁) (property : Property)
      (name : property.name = fact.name)
      (type : property.type = resolved.type.deepen fact.arrayDepth)
      (optional : property.optional = (fact.optional || resolved.nullable)) :
      Calm c frames pending (Ingest.modifyGraph (·.addProperty frame.id property)) s₁ fun _ s' =>
        Treated s'.graph frame.id frame.body.subject fact := by
    have fits : InScope c s₁ frame.body.generics property.type := by
      rw [type]
      exact (inScope.later later valid.graph).deepen fact.arrayDepth
    refine .modifyGraph (.single (.property current split
      (fun earlier listed => (treated earlier listed).later later) name (by rw [optional, nullable])
      fits fun place => (provided place).later later)) (.inr ?_)
    obtain ⟨node, found⟩ : ∃ node, s₁.graph.nodes[frame.id]? = some node :=
      ⟨_, Array.getElem?_eq_getElem (later.inside inside)⟩
    refine ⟨{ node with shape := node.shape.addProperty property }, ?_, fun record => ?_⟩
    · rw [Graph.addProperty, reshape_getElem? valid₁, if_pos rfl, found]
      rfl
    · have isRecord : node.shape.isRecord = true := by
        rw [← record]
        exact (Shape.isRecord_of_label (node.shape.grows_addProperty property).label).symm
      rw [← name]
      exact mem_addProperty node.shape isRecord property
  rw [addProperty]
  cases fact.initializer with
  | none => exact last valid (.refl c s) _ rfl rfl rfl
  | some text =>
    refine (initializerValue_calm valid _ _ _).bind valid fun _ s₁ reaches valid₁ _ => ?_
    exact last valid₁ (reaches.later valid) _ rfl rfl rfl

end records

/-! ### Types at the places of their use -/

/-- The use of a type is in scope, and it is what could be told of it beforehand. -/
structure Yields (c : Context) (s : State) (generics : List String) (t : Traits) (r : Resolved) :
    Prop where
  inScope : InScope c s generics r.type
  nullable : r.nullable = t.nullable
  node : t.parameter = false → ∃ id, r.type.target = .node id
  wrapped : t.wrapped = true →
    (∃ id, r.type.target = .node id) ∧ (0 < r.type.arrayDepth ∨ r.type.arguments ≠ [])

theorem Yields.ofNode {c : Context} {s : State} {generics : List String} {id : NodeId} {t : Traits}
    {nullable : Bool} (inScope : InScope c s generics (.ofNode id)) (same : nullable = t.nullable)
    (plain : t.wrapped = false) : Yields c s generics t ⟨.ofNode id, nullable⟩ where
  inScope := inScope
  nullable := same
  node _ := ⟨id, rfl⟩
  wrapped isWrapped := by
    rw [plain] at isWrapped
    cases isWrapped

theorem Yields.inArray {c : Context} {s : State} {generics : List String} {t : Traits}
    {r : Resolved} (yields : Yields c s generics t r) : Yields c s generics t.inArray r.deepen where
  inScope := yields.inScope.deepen 1
  nullable := yields.nullable
  node := yields.node
  wrapped wrapped := by
    have node := yields.node (by simpa [Traits.inArray] using wrapped)
    exact ⟨node, .inl (by simp [Resolved.deepen, TypeUse.deepen, TypeUse.maxDepth])⟩

/-- The resolution of a type, wherever in the facts it stands. -/
def Resolving (c : Context) (pending : List Nat) (enter : Nat → Ingest (Option NodeId))
    (type : TypeExpr) : Prop :=
  ∀ (frames : List Frame) (s : State) (scope : Scope) (member : String), Valid c s →
    c.Has scope.generics type → Calm c frames pending (resolveUse c enter type scope member) s
      fun found s' => ∀ r, found = some r →
        Yields c s' scope.generics (traits c scope.generics type) r

section types
variable {c : Context} {frames : List Frame} {pending : List Nat} {s : State}
  {enter : Nat → Ingest (Option NodeId)}

theorem any_isNullish (members : List TypeExpr) :
    ((nonNull members).length != members.length) = members.any TypeExpr.isNullish := by
  rw [nonNull, Bool.eq_iff_iff, bne_iff_ne, Ne, List.length_filter_eq_length_iff, List.any_eq_true]
  simp

theorem firstTraits_of_nonNull {generics : List String} {members : List TypeExpr} {type : TypeExpr}
    (single : nonNull members = [type]) :
    firstTraits c generics members = traits c generics type := by
  induction members with
  | nil => cases single
  | cons other rest ih =>
    rw [firstTraits]
    rw [nonNull, List.filter_cons] at single
    cases nullish : other.isNullish with
    | true =>
      rw [nullish] at single
      exact ih single
    | false =>
      rw [nullish] at single
      rw [(List.cons_eq_cons.mp single).1]
      rfl

theorem traits_of_several {generics : List String} {members : List TypeExpr}
    (several : (nonNull members).length ≠ 1) :
    traits c generics (.union members) = { nullable := members.any TypeExpr.isNullish } := by
  rw [traits, if_neg several]
  simp

theorem traits_of_single {generics : List String} {members : List TypeExpr} {type : TypeExpr}
    (single : nonNull members = [type]) :
    traits c generics (.union members) = { traits c generics type with
      nullable := members.any TypeExpr.isNullish || (traits c generics type).nullable } := by
  rw [traits, single, firstTraits_of_nonNull single]
  rfl

theorem dictionaryUse_calm (valid : Valid c s) (stem : String) (key : IndexKey) {value : TypeUse}
    {generics : List String} (inScope : InScope c s generics value) (level : Nat) {t : Traits}
    (plain : t = {}) :
    Calm c frames pending (dictionaryUse stem key value level) s fun r s' =>
      Yields c s' generics t r := by
  subst plain
  have parts : ∀ u ∈ (Shape.dictionary key value []).ownUses, InScope c s generics u := by
    intro u member
    rw [List.mem_singleton.mp member]
    exact inScope
  refine (registerAnonymous_calm valid (madeUp_append stem (by decide)) rfl rfl rfl
    (fun _ none => by cases none) parts level).bind valid fun id _ _ _ fits => .pure ?_
  exact .ofNode fits rfl rfl

theorem anonymousEnum_calm (valid : Valid c s) (scope : Scope) (member : String)
    (members : List Member) (generics : List String) :
    Calm c frames pending (registerAnonymous (madeUpName scope.name member "Enum")
      (.stringUnion members) (scope.level + 1)) s fun id s' => InScope c s' generics (.ofNode id) :=
  registerAnonymous_calm valid (madeUp_append _ (by decide)) rfl rfl rfl
    (fun _ none => by cases none) (fun _ none => by cases none) _

theorem primitiveResult_calm (valid : Valid c s) (kind : Primitive) (nullable : Bool)
    (generics : List String) {t : Traits} (same : nullable = t.nullable)
    (plain : t.wrapped = false) :
    Calm c frames pending (do return some ⟨← primitiveUse kind, nullable⟩) s fun found s' =>
      ∀ r, found = some r → Yields c s' generics t r := by
  refine (primitiveUse_calm valid kind).bind valid
    fun use _ _ _ outcome => .pure fun r isResult => ?_
  obtain ⟨id, rfl, sealed⟩ := outcome
  cases isResult
  exact .ofNode (sealed.inScope _) same plain

section unions
variable {generics : List String} {members : List TypeExpr}

theorem Yields.ofSeveral {id : NodeId} (several : (nonNull members).length ≠ 1)
    (fits : InScope c s generics (.ofNode id)) :
    Yields c s generics (traits c generics (.union members))
      ⟨.ofNode id, (nonNull members).length != members.length⟩ := by
  rw [traits_of_several several]
  exact .ofNode fits (any_isNullish members) rfl

theorem Yields.ofLiterals {s' : State} {union : LiteralUnion} {id : NodeId}
    (amounts : Amounts c s (nonNull members) union) (fits : InScope c s' generics (.ofNode id)) :
    Yields c s' generics (traits c generics (.union members))
      ⟨.ofNode id, (nonNull members).length != members.length⟩ := by
  by_cases single : (nonNull members).length = 1
  · obtain ⟨text, isText⟩ := amounts.1 single
    rw [traits_of_single isText]
    exact .ofNode fits (by rw [any_isNullish]; simp [traits]) (by simp [traits])
  · exact .ofSeveral single fits

theorem Yields.ofOnly {r : Resolved} (single : (nonNull members).length = 1)
    (yields : Yields c s generics (firstTraits c generics members) r) :
    Yields c s generics (traits c generics (.union members))
      ⟨r.type, (nonNull members).length != members.length || r.nullable⟩ := by
  obtain ⟨type, isType⟩ := List.length_eq_one_iff.mp single
  rw [firstTraits_of_nonNull isType] at yields
  rw [traits_of_single isType]
  refine ⟨yields.inScope, ?_, yields.node, yields.wrapped⟩
  rw [any_isNullish, yields.nullable]

theorem collapsed_calm (valid : Valid c s) (several : (nonNull members).length ≠ 1)
    (kind : Primitive) (generics : List String) :
    Calm c frames pending (do
      return some ⟨← primitiveUse kind, (nonNull members).length != members.length⟩) s
    fun found s' => ∀ r, found = some r →
      Yields c s' generics (traits c generics (.union members)) r := by
  rw [traits_of_several several]
  exact primitiveResult_calm valid kind _ _ (any_isNullish members) rfl

theorem lossyUnion_calm (valid : Valid c s) (several : (nonNull members).length ≠ 1)
    (subject text : String) (generics : List String) :
    Calm c frames pending (do
      report .lossyUnion subject text
      return some ⟨← primitiveUse .object, (nonNull members).length != members.length⟩) s
    fun found s' => ∀ r, found = some r →
      Yields c s' generics (traits c generics (.union members)) r :=
  (report_calm .lossyUnion subject text).bind valid
    fun _ _ _ valid' _ => collapsed_calm valid' several .object generics

theorem classUnion_calm (valid : Valid c s) (several : (nonNull members).length ≠ 1) (stem : String)
    {uses : List TypeUse} (parts : ∀ u ∈ uses, InScope c s generics u) (level : Nat) :
    Calm c frames pending (do
      let base ← tryGraph (·.unionBase (nonNull members).length)
      let id ← registerAnonymous (stem ++ "Union") (.classUnionInstance base uses) level
      return some ⟨.ofNode id, (nonNull members).length != members.length⟩) s
    fun found s' => ∀ r, found = some r →
      Yields c s' generics (traits c generics (.union members)) r := by
  refine (unionBase_calm valid _).bind valid fun base s₁ reaches valid₁ inside => ?_
  have parts₁ : ∀ u ∈ uses, InScope c s₁ generics u := fun u listed =>
    (parts u listed).later (reaches.later valid) valid.graph
  have base? : ∀ id, (Shape.classUnionInstance base uses).base? = some id →
      id < s₁.graph.nodes.size := by
    rintro id ⟨⟩
    exact inside
  refine (registerAnonymous_calm valid₁ (madeUp_append _ (by decide)) rfl rfl rfl base?
    parts₁ _).bind valid₁ fun id s₂ _ _ fits => .pure fun r same => ?_
  cases same
  exact .ofSeveral several fits

end unions

theorem unionUse_calm (enters : Entering c pending enter) (valid : Valid c s)
    (members : List TypeExpr) (scope : Scope) (member : String) {only : Ingest (Option Resolved)}
    {records : Ingest (Option (List TypeUse))}
    (onlyCalm : ∀ s, Valid c s → Calm c frames pending only s fun found s' => ∀ r, found = some r →
      Yields c s' scope.generics (firstTraits c scope.generics members) r)
    (recordsCalm : ∀ s, Valid c s → Calm c frames pending records s fun found s' =>
      ∀ uses, found = some uses → ∀ u ∈ uses, InScope c s' scope.generics u) :
    Calm c frames pending (unionUse c enter members scope member only records) s fun found s' =>
      ∀ r, found = some r →
        Yields c s' scope.generics (traits c scope.generics (.union members)) r := by
  rw [unionUse]
  change Calm c frames pending (if (nonNull members).isEmpty then _ else _) s _
  split
  · rename_i none
    refine collapsed_calm valid (fun single => ?_) .null scope.generics
    rw [List.isEmpty_iff.mp none] at single
    cases single
  · refine (literalUnion_calm enters valid _ _).bind valid fun found s₁ _ valid₁ amounts => ?_
    cases found with
    | some union =>
      cases union with
      | members texts =>
        refine (anonymousEnum_calm valid₁ scope member texts scope.generics).bind valid₁
          fun id s₂ _ _ fits => .pure fun r same => ?_
        cases same
        exact .ofLiterals (amounts _ rfl) fits
      | existing id =>
        refine .pure fun r same => ?_
        cases same
        exact .ofLiterals (amounts _ rfl) (((amounts _ rfl).2 id rfl).inScope _)
    | none =>
      dsimp only
      split
      · rename_i single
        refine (onlyCalm s₁ valid₁).bind valid₁ fun found s₂ _ _ yields => .pure fun r same => ?_
        obtain ⟨other, rfl, rfl⟩ := Option.map_eq_some_iff.mp same
        exact (yields other rfl).ofOnly single
      · rename_i several
        split
        · exact collapsed_calm valid₁ several _ scope.generics
        · split
          · refine (recordsCalm s₁ valid₁).bind valid₁ fun found s₂ _ valid₂ parts => ?_
            cases found with
            | some uses => exact classUnion_calm valid₂ several _ (parts uses rfl) _
            | none => exact lossyUnion_calm valid₂ several _ _ scope.generics
          · exact lossyUnion_calm valid₁ several _ _ scope.generics

section lists
variable {types : List TypeExpr} (resolving : ∀ type ∈ types, Resolving c pending enter type)
  (valid : Valid c s) {scope : Scope} (has : ∀ type ∈ types, c.Has scope.generics type)
include resolving valid has

theorem resolveOnly_calm (member : String) :
    Calm c frames pending (resolveOnly c enter types scope member) s fun found s' =>
      ∀ r, found = some r →
        Yields c s' scope.generics (firstTraits c scope.generics types) r := by
  induction types with
  | nil => exact .pure fun _ same => by cases same
  | cons type rest ih =>
    rw [resolveOnly, firstTraits]
    split
    · exact ih (fun other member => resolving other (List.mem_cons_of_mem type member))
        fun other member => has other (List.mem_cons_of_mem type member)
    · exact resolving type List.mem_cons_self frames s scope member valid
        (has type List.mem_cons_self)

theorem resolveOr_calm {type : TypeExpr} (mem : type ∈ types) (member : String) :
    Calm c frames pending (do orObject (← resolveUse c enter type scope member)) s fun use s' =>
      InScope c s' scope.generics use :=
  (resolving type mem frames s scope member valid (has type mem)).bind valid
    fun _ _ _ valid' yields => orObject_calm valid' fun r same => (yields r same).inScope

theorem resolveRecords_calm (member : String) (number : Nat) :
    Calm c frames pending (resolveRecords c enter types scope member number) s fun found s' =>
      ∀ uses, found = some uses → ∀ u ∈ uses, InScope c s' scope.generics u := by
  induction types generalizing number s with
  | nil =>
    refine .pure fun uses same => ?_
    cases same
    exact fun _ none => by cases none
  | cons type rest ih =>
    have others {s : State} (valid : Valid c s) (number : Nat) :=
      @ih s (fun other member => resolving other (List.mem_cons_of_mem type member)) valid
        (fun other member => has other (List.mem_cons_of_mem type member)) number
    rw [resolveRecords]
    split
    · exact others valid number
    · refine (resolving type List.mem_cons_self frames s scope _ valid
        (has type List.mem_cons_self)).bind valid fun found s₁ _ valid₁ yields => ?_
      cases found with
      | none => exact .pure fun _ same => by cases same
      | some resolved =>
        refine .getGraph_bind ?_
        split
        · refine (others valid₁ (number + 1)).bind valid₁ fun found s₂ reaches _ parts => ?_
          refine .pure fun uses same => ?_
          obtain ⟨more, rfl, rfl⟩ := Option.map_eq_some_iff.mp same
          intro u member
          rcases List.mem_cons.mp member with rfl | member
          · exact (yields resolved rfl).inScope.later (reaches.later valid₁) valid₁.graph
          · exact parts more rfl u member
        · exact .pure fun _ same => by cases same

theorem resolveItems_calm (number : Nat) :
    Calm c frames pending (resolveItems c enter types scope number) s fun uses s' =>
      ∀ u ∈ uses, InScope c s' scope.generics u := by
  induction types generalizing number s with
  | nil => exact .pure fun _ none => by cases none
  | cons type rest ih =>
    rw [resolveItems, ← bind_assoc]
    refine (resolveOr_calm resolving valid has List.mem_cons_self _).bind valid
      fun first s₁ _ valid₁ inScope => ?_
    refine (ih (fun other member => resolving other (List.mem_cons_of_mem type member)) valid₁
      (fun other member => has other (List.mem_cons_of_mem type member)) (number + 1)).bind valid₁
      fun uses s₂ reaches _ parts => .pure fun u member => ?_
    rcases List.mem_cons.mp member with rfl | member
    · exact inScope.later (reaches.later valid₁) valid₁.graph
    · exact parts u member

theorem resolveArguments_calm (member : String) :
    Calm c frames pending (resolveArguments c enter types scope member) s fun uses s' =>
      uses.length = types.length ∧ ∀ u ∈ uses, InScope c s' scope.generics u := by
  induction types generalizing s with
  | nil => exact .pure ⟨rfl, fun _ none => by cases none⟩
  | cons type rest ih =>
    rw [resolveArguments, ← bind_assoc]
    refine (resolveOr_calm resolving valid has List.mem_cons_self _).bind valid
      fun first s₁ _ valid₁ inScope => ?_
    refine (ih (fun other member => resolving other (List.mem_cons_of_mem type member)) valid₁
      fun other member => has other (List.mem_cons_of_mem type member)).bind valid₁
      fun uses s₂ reaches _ outcome => .pure ⟨?_, fun u member => ?_⟩
    · rw [List.length_cons, List.length_cons, outcome.1]
    rcases List.mem_cons.mp member with rfl | member
    · exact inScope.later (reaches.later valid₁) valid₁.graph
    · exact outcome.2 u member

theorem resolveArrayOf_calm (member : String) :
    Calm c frames pending (resolveArrayOf c enter types scope member) s fun found s' =>
      ∀ r, found = some r →
        Yields c s' scope.generics (elementTraits c scope.generics types) r := by
  rw [resolveArrayOf.eq_def]
  split
  · rename_i element
    refine (resolving element List.mem_cons_self frames s scope member valid
      (has element List.mem_cons_self)).bind valid fun found _ _ _ yields => .pure fun r same => ?_
    obtain ⟨resolved, rfl, rfl⟩ := Option.map_eq_some_iff.mp same
    exact (yields resolved rfl).inArray
  · exact .pure fun _ same => by cases same

theorem resolveRecordOf_calm (member : String) {t : Traits} (plain : t = {}) :
    Calm c frames pending (resolveRecordOf c enter types scope member) s fun found s' =>
      ∀ r, found = some r → Yields c s' scope.generics t r := by
  rw [resolveRecordOf.eq_def]
  split
  · rename_i key value
    have listed : value ∈ [key, value] := List.mem_cons_of_mem key List.mem_cons_self
    dsimp only
    generalize madeUpName scope.name member "" = stem
    have first := resolving value listed frames s (scope.nested stem) "Value" valid
      (has value listed)
    refine first.bind valid fun found s₁ _ valid₁ yields => ?_
    have fits : ∀ r, found = some r → InScope c s₁ scope.generics r.type :=
      fun r same => (yields r same).inScope
    refine (orObject_calm valid₁ fits).bind valid₁ fun use s₂ _ valid₂ inScope => ?_
    have dictionary := @dictionaryUse_calm c frames pending s₂ valid₂ stem (recordKey key) use
      scope.generics inScope (scope.nested stem).level t plain
    refine dictionary.bind valid₂ fun resolved _ _ _ yields => .pure fun r same => ?_
    cases same
    exact yields
  · exact .pure fun _ same => by cases same

end lists

/-! ### References -/

theorem findByTypeText_named {g : Graph} {text : String} {id : NodeId}
    (found : g.findByTypeText text = some id) :
    ∃ node, g.nodes[id]? = some node ∧ node.name = nameOfTypeText text := by
  rw [findByTypeText, findByName] at found
  dsimp only at found
  split at found
  · cases found
  · split at found
    · rename_i known
      cases found
      obtain ⟨-, -, node, there, name⟩ := liveByName_eq_some_iff.mp known
      exact ⟨node, there, name⟩
    · obtain ⟨⟨other, node⟩, searched, rfl⟩ := Option.map_eq_some_iff.mp found
      exact ⟨node, (mem_liveNodes.mp (List.mem_of_find?_eq_some searched)).2,
        by simpa using List.find?_some searched⟩

/-- No type parameters occur in a node that can be named elsewhere, or else they leak. -/
theorem Exposed.inScope {id : NodeId} (exposed : Exposed c s id)
    (inside : id < s.graph.nodes.size) : InScope c s [] (.ofNode id) :=
  .node inside (fun _ sealed name occurs => sealed ⟨id, name, occurs, exposed⟩)
    fun _ none => by cases none

section references
variable {name : String} {origin : Option String} {arguments : List TypeExpr}
  (resolving : ∀ type ∈ arguments, Resolving c pending enter type)
  (valid : Valid c s) {scope : Scope}
  (has : c.Has scope.generics (.reference name origin arguments))
include resolving valid has

theorem targetUse_calm (member : String) {target : Option NodeId}
    (fits : ∀ id, target = some id → InScope c s [] (.ofNode id)) {t : Traits}
    (plain : t.nullable = false) (wrapped : t.wrapped = true → arguments ≠ []) :
    Calm c frames pending (targetUse c enter arguments scope member target) s fun found s' =>
      ∀ r, found = some r → Yields c s' scope.generics t r := by
  cases target with
  | none => exact .pure fun _ same => by cases same
  | some id =>
    refine (resolveArguments_calm resolving valid (fun type listed => .part has listed)
      member).bind valid fun uses s₁ reaches _ outcome => .pure fun r same => ?_
    cases same
    have target := (fits id rfl).later (reaches.later valid) valid.graph
    refine ⟨.node (target.inside id (by simp [TypeUse.ofNode, TypeUse.nodes])) ?_ outcome.2,
      plain.symm, fun _ => ⟨id, rfl⟩,
      fun isWrapped => ⟨⟨id, rfl⟩, .inr fun none => wrapped isWrapped ?_⟩⟩
    · intro apart sealed other occurs
      cases target.occurs apart sealed other occurs
    · have length := outcome.1
      rw [show uses = [] from none] at length
      exact List.length_eq_zero_iff.mp length.symm

/-- A builtin type, or else the node of that name. No node has the name of a builtin array, unless
it is declared. -/
theorem builtinUse_calm (undeclared : c.placesNamed name = []) (member : String)
    {builtin : Option Resolved} {t : Traits}
    (known : ∀ r, builtin = some r → Yields c s scope.generics t r)
    (plain : name ∉ arrayNames → t.nullable = false)
    (wrapped : name ∉ arrayNames → t.wrapped = true → arguments ≠ []) :
    Calm c frames pending (builtinUse c enter name arguments scope member builtin) s fun found s' =>
      ∀ r, found = some r → Yields c s' scope.generics t r := by
  cases builtin with
  | some resolved => exact .pure known
  | none =>
    rw [builtinUse.eq_def]
    refine .getGraph_bind ?_
    rw [pure_bind]
    cases target : s.graph.findByTypeText name with
    | none => exact .pure fun _ same => by cases same
    | some id =>
      obtain ⟨node, found, isName⟩ := findByTypeText_named target
      have other : name ∉ arrayNames := by
        intro array
        have same : nameOfTypeText name = name := by
          revert array
          simp only [arrayNames, List.mem_cons, List.not_mem_nil, or_false]
          rintro (rfl | rfl) <;> decide
        rw [same] at isName
        obtain ⟨fact, mem, isType, isFact⟩ := valid.keyed.arrays id node found (isName ▸ array)
        obtain ⟨place, there⟩ := List.mem_iff_getElem?.mp mem
        have listed := mem_placesNamed_of_isType there isType
        rw [isFact, isName, undeclared] at listed
        cases listed
      refine targetUse_calm resolving valid has member (fun id' same => ?_) (plain other)
        (wrapped other)
      cases same
      refine Exposed.inScope
        (.inr ⟨node, scope.generics, name, origin, arguments, found, has, isName⟩)
        (Array.getElem?_eq_some_iff.mp found).1

omit valid has in
theorem reference_calm (enters : Entering c pending enter) (origin : Option String) :
    Resolving c pending enter (.reference name origin arguments) := by
  intro frames s scope member valid has
  have parts : ∀ type ∈ arguments, c.Has scope.generics type := fun type listed => .part has listed
  rw [resolveUse.eq_def, traits]
  dsimp only
  split
  · rename_i generic
    rw [Bool.and_eq_true, List.contains_iff_mem] at generic
    refine .pure fun r same => ?_
    cases same
    exact ⟨.ofGeneric generic.1, rfl, fun other => (by cases other), fun other => by cases other⟩
  · rw [show (origin.bind c.placeOfOrigin?).or (c.placesNamed name).head? =
      c.place? name origin from rfl]
    cases first : c.place? name origin with
    | some place =>
      refine (enters frames s place valid).bind valid fun target s₁ _ valid₁ built => ?_
      refine targetUse_calm resolving valid₁ has member (fun id same => ?_) rfl
        fun wrapped none => ?_
      · have known := built id same
        exact Exposed.inScope (.inl ⟨place, known⟩) (valid₁.built place id known)
      · rw [none] at wrapped
        cases wrapped
    | none =>
      have undeclared : c.placesNamed name = [] := by
        rw [Context.place?, Option.or_eq_none_iff, List.head?_eq_none_iff] at first
        exact first.2
      have isArray : (name == "Array" || name == "ReadonlyArray") = arrayNames.contains name := by
        simp [arrayNames, Bool.beq_eq_decide_eq]
      rw [isArray]
      dsimp only [Option.isSome_none]
      rw [if_neg Bool.false_ne_true]
      split
      · rename_i array
        rw [List.contains_iff_mem] at array
        refine (resolveArrayOf_calm resolving valid parts member).bind valid
          fun builtin s₁ _ valid₁ known => ?_
        exact builtinUse_calm resolving valid₁ has undeclared member known
          (fun other => absurd array other) fun other => absurd array other
      · split
        · refine (resolveRecordOf_calm resolving valid parts member rfl).bind valid
            fun builtin s₁ _ valid₁ known => ?_
          exact builtinUse_calm resolving valid₁ has undeclared member known (fun _ => rfl)
            fun _ wrapped => by cases wrapped
        · rw [pure_bind]
          have other : Calm c frames pending (builtinUse c enter name arguments scope member none) s
              fun found s' => ∀ r, found = some r →
                Yields c s' scope.generics { wrapped := !arguments.isEmpty } r :=
            builtinUse_calm resolving valid has undeclared member (fun _ same => by cases same)
              (fun _ => rfl) fun _ wrapped => by simpa using wrapped
          exact other

end references

/-! ### All types -/

theorem addProperties_calm {frame : Frame} (current : frame ∈ frames) {scope : Scope}
    (generics : frame.body.generics = scope.generics) (subject : frame.body.subject = scope.name)
    {before properties : List PropertyFact}
    (split : frame.body.properties = before ++ properties)
    (resolving : ∀ property ∈ properties, Resolving c pending enter property.type)
    (has : ∀ property ∈ properties, c.Has scope.generics property.type) (valid : Valid c s)
    (inside : frame.id < s.graph.nodes.size)
    (treated : ∀ earlier ∈ before, Treated s.graph frame.id frame.body.subject earlier)
    (provided : frame.place.isSome = true → Provides s.graph frame.id frame.body.generics) :
    Calm c frames pending (addProperties c enter properties frame.id scope) s fun _ s' =>
      ∀ fact ∈ frame.body.properties, Treated s'.graph frame.id frame.body.subject fact := by
  induction properties generalizing s before with
  | nil =>
    rw [List.append_nil] at split
    rw [addProperties, split]
    exact .pure treated
  | cons property rest ih =>
    have others {s₂ : State} (valid₂ : Valid c s₂) (later : Later c s s₂)
        (last : Treated s₂.graph frame.id frame.body.subject property) :
        Calm c frames pending (addProperties c enter rest frame.id scope) s₂ fun _ s' =>
          ∀ fact ∈ frame.body.properties, Treated s'.graph frame.id frame.body.subject fact := by
      refine @ih s₂ (before ++ [property]) (by rw [split, List.append_assoc]; rfl)
        (fun other member => resolving other (List.mem_cons_of_mem property member))
        (fun other member => has other (List.mem_cons_of_mem property member)) valid₂
        (later.inside inside) (fun earlier member => ?_) fun place => (provided place).later later
      rcases List.mem_append.mp member with old | new
      · exact (treated earlier old).later later
      · rw [List.mem_singleton.mp new]
        exact last
    rw [addProperties_cons]
    refine (resolving property List.mem_cons_self frames s scope property.name valid
      (has property List.mem_cons_self)).bind valid fun found s₁ reaches valid₁ yields => ?_
    have later := reaches.later valid
    cases found with
    | none =>
      refine (report_calm _ _ _).bind valid₁ fun _ s₂ reaches₁ valid₂ noted => ?_
      refine others valid₂ (later.trans (reaches₁.later valid₁)) (.inl ?_)
      rw [subject]
      exact noted
    | some resolved =>
      have known := yields resolved rfl
      rw [← generics] at known
      refine (addProperty_calm valid₁ current (later.inside inside) split
        (fun earlier member => (treated earlier member).later later)
        (fun place => (provided place).later later) known.inScope known.nullable _).bind valid₁
        fun _ s₂ reaches₁ valid₂ last => ?_
      exact others valid₂ (later.trans (reaches₁.later valid₁)) last

theorem inlineProperties_calm (valid : Valid c s) (scope : Scope) {properties : List PropertyFact}
    {signatures : List IndexSignature} (has : c.Has scope.generics (.object properties signatures))
    (resolving : ∀ property ∈ properties, Resolving c pending enter property.type) {name : String}
    (madeUp : MadeUp name) :
    Calm c frames pending (inlineRecord name scope (addProperties c enter properties)) s
      fun use s' =>
      (∃ id, use.target = .node id) ∧ InScope c s' scope.generics use := by
  refine inlineRecord_calm valid madeUp scope ⟨signatures, has⟩
    fun id frames' s' valid' inside current => ?_
  refine addProperties_calm current (scope.nested_generics name).symm rfl (List.nil_append _).symm
    resolving (fun property member => ?_) valid' inside (fun _ none => by cases none)
    fun place => by cases place
  exact .part has (List.mem_append_left _ (List.mem_map.mpr ⟨property, member, rfl⟩))

theorem dictionaryValue_calm (valid : Valid c s) {key : IndexKey} {value : TypeExpr}
    (resolving : Resolving c pending enter value)
    (inside : ∀ properties signatures, value = .object properties signatures →
      ∀ property ∈ properties, Resolving c pending enter property.type) {scope : Scope}
    (has : c.Has scope.generics value) (stem : String) :
    Calm c frames pending (dictionaryValue c enter ⟨key, value⟩ scope stem) s fun use s' =>
      InScope c s' scope.generics use := by
  have madeUp : MadeUp (Name.pascal stem ++ "Value") := madeUp_append _ (by decide)
  rw [dictionaryValue.eq_def]
  dsimp only
  split
  · exact (inlineProperties_calm valid scope has (inside _ _ rfl) madeUp).mono
      fun _ _ _ => And.right
  · exact (inlineProperties_calm valid scope has (inside _ _ rfl) madeUp).mono
      fun _ _ _ => And.right
  · exact (inlineProperties_calm valid scope has (inside _ _ rfl) madeUp).mono
      fun _ _ _ => And.right
  · refine (resolving frames s (scope.nested stem) "Value" valid has).bind valid
      fun found s₁ _ valid₁ yields => orObject_calm valid₁ fun r same => ?_
    exact (yields r same).inScope

theorem object_calm {properties : List PropertyFact} {signatures : List IndexSignature}
    (each : ∀ other ∈ properties, Resolving c pending enter other.type)
    (values : ∀ signature ∈ signatures, Resolving c pending enter signature.value)
    (inside : ∀ signature ∈ signatures, ∀ properties signatures,
      signature.value = .object properties signatures →
      ∀ other ∈ properties, Resolving c pending enter other.type) :
    Resolving c pending enter (.object properties signatures) := by
  intro frames s scope member valid has
  rw [traits]
  by_cases dictionary : ∃ signature, properties = [] ∧ signatures = [signature]
  · obtain ⟨⟨key, value⟩, rfl, rfl⟩ := dictionary
    rw [resolveUse.eq_def]
    refine (dictionaryValue_calm valid (values _ List.mem_cons_self) (inside _ List.mem_cons_self)
      (.part has List.mem_cons_self) _).bind valid fun use s₁ _ valid₁ inScope => ?_
    refine (dictionaryUse_calm valid₁ _ _ inScope _ rfl).bind valid₁
      fun resolved _ _ _ yields => .pure fun r same => ?_
    cases same
    exact yields
  · rw [resolveUse_record fun signature empty single => dictionary ⟨signature, empty, single⟩]
    refine (inlineProperties_calm valid scope has each (madeUp_append _ (by decide))).bind valid
      fun use _ _ _ outcome => .pure fun r same => ?_
    cases same
    exact ⟨outcome.2, rfl, fun _ => outcome.1, fun wrapped => by cases wrapped⟩

theorem tuple_calm {elements : List TypeExpr}
    (each : ∀ type ∈ elements, Resolving c pending enter type) :
    Resolving c pending enter (.tuple elements) := by
  intro frames s scope member valid has
  rw [resolveUse.eq_def, traits]
  dsimp only
  generalize madeUpName scope.name member "" = stem
  have items := @resolveItems_calm c frames pending s enter elements each valid
    (scope.nested stem) (fun type listed => .part has listed) 1
  refine items.bind valid fun uses s₁ _ valid₁ parts => ?_
  have parts : ∀ u ∈ (Shape.tuple uses []).ownUses, InScope c s₁ scope.generics u := parts
  refine (registerAnonymous_calm valid₁ (madeUp_append _ (by decide)) rfl rfl rfl
    (fun _ none => by cases none) parts _).bind valid₁ fun id _ _ _ fits => .pure fun r same => ?_
  cases same
  exact .ofNode fits rfl rfl

theorem resolveUse_calm (enters : Entering c pending enter) (type : TypeExpr) :
    Resolving c pending enter type := by
  -- By size, as the value of a dictionary is asked for its own properties, two levels below.
  induction size : sizeOf type using Nat.strong_induction_on generalizing type with
  | _ n ih =>
    subst size
    have part : ∀ other ∈ type.parts, Resolving c pending enter other := fun other listed =>
      ih _ (TypeExpr.sizeOf_lt_of_mem_parts listed) other rfl
    cases type with
    | reference name origin arguments => exact reference_calm part enters origin
    | primitive kind =>
      intro frames s scope member valid _
      rw [resolveUse.eq_def, traits]
      exact primitiveResult_calm valid kind _ _ rfl rfl
    | stringLiteral _ | numberLiteral _ | booleanLiteral _ =>
      intro frames s scope member valid _
      rw [resolveUse.eq_def, traits]
      exact primitiveResult_calm valid _ _ _ rfl rfl
    | enumLiteral enumName literal value =>
      intro frames s scope member valid _
      rw [resolveUse.eq_def, traits]
      refine (enumOfLiteral_calm enters valid enumName literal).bind valid
        fun found _ _ _ sealed => .pure fun r same => ?_
      obtain ⟨id, rfl, rfl⟩ := Option.map_eq_some_iff.mp same
      exact .ofNode ((sealed id rfl).inScope _) rfl rfl
    | union members =>
      intro frames s scope member valid has
      rw [resolveUse.eq_def]
      have each : ∀ type ∈ members, Resolving c pending enter type := part
      have parts : ∀ type ∈ members, c.Has scope.generics type :=
        fun type listed => .part has listed
      exact unionUse_calm enters valid members scope member
        (fun s valid => resolveOnly_calm each valid parts member)
        fun s valid => resolveRecords_calm each valid parts member 1
    | enumeration entries =>
      intro frames s scope member valid _
      rw [resolveUse.eq_def, traits]
      refine (enumMembers_calm valid _ _).bind valid fun members s₁ _ valid₁ _ => ?_
      refine (anonymousEnum_calm valid₁ scope member members scope.generics).bind valid₁
        fun id _ _ _ fits => .pure fun r same => ?_
      cases same
      exact .ofNode fits rfl rfl
    | object properties signatures =>
      have value (signature) (listed : signature ∈ signatures) :
          signature.value ∈ (TypeExpr.object properties signatures).parts :=
        List.mem_append_right _ (List.mem_map_of_mem listed)
      refine object_calm (fun other listed => ?_) (fun signature listed => part _ (value _ listed))
        fun signature listed properties signatures isObject other inside => ?_
      · exact part other.type (List.mem_append_left _ (List.mem_map_of_mem listed))
      · have below : other.type ∈ signature.value.parts := by
          rw [isObject]
          exact List.mem_append_left _ (List.mem_map_of_mem inside)
        exact ih _ ((TypeExpr.sizeOf_lt_of_mem_parts below).trans
          (TypeExpr.sizeOf_lt_of_mem_parts (value _ listed))) other.type rfl
    | array element =>
      intro frames s scope member valid has
      rw [resolveUse.eq_def, traits]
      refine (part element List.mem_cons_self frames s scope member valid
        (.part has List.mem_cons_self)).bind valid fun found _ _ _ yields => .pure fun r same => ?_
      obtain ⟨resolved, rfl, rfl⟩ := Option.map_eq_some_iff.mp same
      exact (yields resolved rfl).inArray
    | tuple elements => exact tuple_calm part
    | parameter name =>
      intro frames s scope member valid _
      rw [resolveUse.eq_def, traits]
      refine .pure fun r same => ?_
      split_ifs at same with known
      cases same
      exact ⟨.ofGeneric (List.contains_iff_mem.mp known), rfl, fun other => (by cases other),
        fun other => by cases other⟩

end types

end Ingest

end TypeLoom
