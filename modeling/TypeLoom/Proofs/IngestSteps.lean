import TypeLoom.Proofs.DeclarationOrder
import TypeLoom.Proofs.UseMoves

/-! An ingest as a chain of moves. The node of a declaration that does not stand for another type is
one that was made for it, or for one of the same key. -/
namespace TypeLoom

namespace Ingest
open TypeLoom.Graph TypeLoom.Fact Relation

/-- The node of the declaration at a place, before it is noted. -/
structure Denotes (c : Context) (s : State) (place : Nat) (fact : Fact) (id : NodeId) : Prop where
  inside : id < s.graph.nodes.size
  unbuilt : s.built.get? place = some id ∨ s.built.get? place = none ∧ objectBody? fact = none
  bears : ownsNode c fact = true → c.Clashes ∨ Owns s.graph fact id

/-- A node of a declaration that is not noted yet. -/
def Carries (c : Context) (s : State) (fact : Fact) (id : NodeId) : Prop :=
  id < s.graph.nodes.size ∧ (ownsNode c fact = true → c.Clashes ∨ Owns s.graph fact id)

/-- Type parameters whose defaults are in scope. -/
def Defaulted (c : Context) (s : State) (names : List String) (generics : List Parameter) : Prop :=
  ∀ parameter ∈ generics, ∀ u, parameter.default = some u → InScope c s names u

section declarations
variable {c : Context} {frames : List Frame} {pending : List Nat} {s : State}
  {enter : Nat → Ingest (Option NodeId)} {fact : Fact} {scope : Scope}

theorem mem_nodes_of_nodeId? {u : TypeUse} {id : NodeId} (isNode : u.nodeId? = some id) :
    id ∈ u.nodes := by
  obtain ⟨target, depth, arguments⟩ := u
  cases target with
  | generic name => cases isNode
  | node target =>
    cases isNode
    simp [TypeUse.nodes]

theorem Defaulted.later {s' : State} {names : List String} {generics : List Parameter}
    (defaulted : Defaulted c s names generics) (after : Later c s s') (intact : s.graph.Intact) :
    Defaulted c s' names generics := fun parameter listed u default =>
  (defaulted parameter listed u default).later after intact

theorem registerParts_calm (valid : Valid c s) (mem : fact ∈ c.facts)
    (registers : (isSolid fact || isAlias fact) = true)
    {shape : Shape} (ordinary : shape.isOrdinary = true) (other : shape.isRecord = false)
    {names : List String} {generics : List Parameter} (defaulted : Defaulted c s names generics)
    (same : shape.generics = generics)
    (base : ∀ id, shape.base? = some id → id < s.graph.nodes.size)
    (own : ∀ u ∈ shape.ownUses, ∀ id ∈ u.nodes, id < s.graph.nodes.size) :
    Calm c frames pending (registerNamed fact shape) s fun id s' =>
      id < s'.graph.nodes.size ∧ (c.Clashes ∨ Owns s'.graph fact id) := by
  refine registerNamed_calm valid mem registers ordinary (fun record => ?_) fun id member => ?_
  · rw [other] at record
    cases record
  rw [Shape.mem_outgoing, Shape.typeUses, same] at member
  rcases member with isBase | ⟨u, listed, member⟩
  · exact base id isBase
  · rcases List.mem_append.mp listed with default | listed
    · obtain ⟨parameter, mem, default⟩ := List.mem_filterMap.mp default
      exact (defaulted parameter mem u default).inside id member
    · exact own u listed id member

variable (enters : Entering c pending enter)
include enters

theorem parameters_calm (valid : Valid c s) {listed : List TypeParameter}
    (has : ∀ parameter ∈ listed, ∀ type, parameter.default = some type →
      c.Has scope.generics type) :
    Calm c frames pending (parameters c enter scope listed) s fun generics s' =>
      generics.map Parameter.name = listed.map TypeParameter.name ∧
        Defaulted c s' scope.generics generics := by
  induction listed generalizing s with
  | nil => exact .pure ⟨rfl, fun _ none => by cases none⟩
  | cons parameter rest ih =>
    have others {s₁ : State} (valid₁ : Valid c s₁) (default : Option TypeUse)
        (fits : ∀ u, default = some u → InScope c s₁ scope.generics u) :
        Calm c frames pending (do
          return ⟨parameter.name, default⟩ :: (← parameters c enter scope rest)) s₁
        fun generics s' => generics.map Parameter.name =
            (parameter :: rest).map TypeParameter.name ∧
          Defaulted c s' scope.generics generics := by
      refine (ih valid₁ fun other member => has other (List.mem_cons_of_mem parameter member)).bind
        valid₁ fun generics s₂ reaches valid₂ outcome => .pure ⟨?_, fun other member => ?_⟩
      · rw [List.map_cons, List.map_cons, outcome.1]
      · rcases List.mem_cons.mp member with rfl | member
        · exact fun u same => (fits u same).later (reaches.later valid₁) valid₁.graph
        · exact outcome.2 other member
    rw [parameters]
    cases default : parameter.default with
    | none => exact others valid none fun _ same => by cases same
    | some type =>
      refine (resolveUse_calm enters type frames s scope parameter.name valid
        (has parameter List.mem_cons_self type default)).bind valid
        fun found s₁ _ valid₁ yields => ?_
      refine others valid₁ (found.map Resolved.type) fun u same => ?_
      obtain ⟨resolved, rfl, rfl⟩ := Option.map_eq_some_iff.mp same
      exact (yields resolved rfl).inScope

theorem aliasOrWrap_calm (valid : Valid c s) (mem : fact ∈ c.facts)
    (registers : (isSolid fact || isAlias fact) = true)
    (has : ∀ parameter ∈ fact.typeParameters, ∀ type, parameter.default = some type →
      c.Has scope.generics type) {type : TypeUse} (inScope : InScope c s scope.generics type) :
    Calm c frames pending (aliasOrWrap c enter fact scope type) s fun id s' =>
      id < s'.graph.nodes.size ∧ ((∃ target, type.target = .node target) ∧
        (0 < type.arrayDepth ∨ type.arguments ≠ []) → c.Clashes ∨ Owns s'.graph fact id) := by
  obtain ⟨target, depth, arguments⟩ := type
  rw [aliasOrWrap]
  cases target with
  | generic name =>
    refine (primitive_calm valid .object).mono fun id s' _ sealed => ⟨sealed.1, fun wrapped => ?_⟩
    obtain ⟨⟨target, same⟩, -⟩ := wrapped
    cases same
  | node target =>
    dsimp only
    split_ifs with deep plain
    · refine (parameters_calm enters valid has).bind valid
        fun generics s₁ reaches valid₁ outcome => ?_
      have inside := (inScope.later (reaches.later valid) valid.graph).inside
      refine (registerParts_calm valid₁ mem registers rfl rfl outcome.2 rfl (fun id base => ?_)
        fun u listed => ?_).mono fun id s' _ outcome => ⟨outcome.1, fun _ => outcome.2⟩
      · cases base
      · rw [List.mem_singleton.mp listed]
        exact inside
    · refine .pure ⟨inScope.inside target (by simp [TypeUse.nodes]), fun wrapped => ?_⟩
      rcases wrapped.2 with more | filled
      · exact absurd more deep
      · exact absurd (List.isEmpty_iff.mp plain) filled
    · refine (parameters_calm enters valid has).bind valid
        fun generics s₁ reaches valid₁ outcome => ?_
      have inside := (inScope.later (reaches.later valid) valid.graph).inside
      rw [TypeUse.nodes, TypeUse.nodesOfAll_eq] at inside
      refine (registerParts_calm valid₁ mem registers rfl rfl outcome.2 rfl (fun id base => ?_)
        fun u listed id member => ?_).mono fun id s' _ outcome => ⟨outcome.1, fun _ => outcome.2⟩
      · cases base
        exact inside target List.mem_cons_self
      · exact inside id (List.mem_cons_of_mem _ (List.mem_flatMap.mpr ⟨u, listed, member⟩))

omit enters in
theorem Calm.carries (valid : Valid c s) {m : Ingest NodeId}
    (calm : Calm c frames pending m s fun id s' =>
      id < s'.graph.nodes.size ∧ (c.Clashes ∨ Owns s'.graph fact id)) :
    Calm c frames pending (do return some (← m)) s fun found s' =>
      ∀ id, found = some id → Carries c s' fact id := by
  refine calm.bind valid fun id _ _ _ outcome => .pure fun other same => ?_
  cases same
  exact ⟨outcome.1, fun _ => outcome.2⟩

/-- A declaration that stands for another type has a node of its own if this is known beforehand. -/
theorem wrap_calm (valid : Valid c s) (mem : fact ∈ c.facts)
    (registers : (isSolid fact || isAlias fact) = true)
    (has : ∀ parameter ∈ fact.typeParameters, ∀ type, parameter.default = some type →
      c.Has scope.generics type) {resolved : Resolved} {t : Traits}
    (yields : Yields c s scope.generics t resolved)
    (owns : ownsNode c fact = true → t.wrapped = true) :
    Calm c frames pending (do return some (← aliasOrWrap c enter fact scope resolved.type)) s
      fun found s' => ∀ id, found = some id → Carries c s' fact id := by
  refine (aliasOrWrap_calm enters valid mem registers has yields.inScope).bind valid
    fun id _ _ _ outcome => .pure fun other same => ?_
  cases same
  exact ⟨outcome.1, fun isOwn => outcome.2 (yields.wrapped (owns isOwn))⟩

omit enters in
theorem registerEnum_calm (valid : Valid c s) (mem : fact ∈ c.facts)
    (registers : (isSolid fact || isAlias fact) = true)
    (members : List Member) :
    Calm c frames pending (registerNamed fact (.stringUnion members)) s fun id s' =>
      id < s'.graph.nodes.size ∧ (c.Clashes ∨ Owns s'.graph fact id) :=
  registerNamed_calm valid mem registers rfl (fun record => by cases record)
    fun _ none => by cases none

/-- A union of texts is an enum of its own. One of other literals may be an existing enum. -/
theorem declareUnion_calm (valid : Valid c s) (mem : fact ∈ c.facts) {members : List TypeExpr}
    (body : fact.body = .type (.union members)) {place : Nat} :
    Calm c frames pending (declareType c enter place fact (.union members)) s fun found s' =>
      ∀ id, found = some id → Carries c s' fact id := by
  have registers : (isSolid fact || isAlias fact) = true := by simp [isSolid, isAlias, body]
  have types : (members.filter fun type => !type.isNullish) = nonNull members := rfl
  rw [declareType, types]
  cases texts : (TypeExpr.union members).memberNames? with
  | some names =>
    rw [TypeExpr.memberNames?] at texts
    split_ifs at texts with empty
    rw [literalUnion_texts enter fact.name (Bool.eq_false_of_not_eq_true empty) texts, pure_bind]
    exact .carries valid (registerEnum_calm valid mem registers _)
  | none =>
    have owns : ownsNode c fact = (traits c fact.generics (.union members)).wrapped := by
      rw [ownsNode, body]
      simp [texts]
    refine (literalUnion_calm enters valid _ _).bind valid fun found s₁ _ valid₁ amounts => ?_
    cases found with
    | some union =>
      cases union with
      | members members => exact .carries valid₁ (registerEnum_calm valid₁ mem registers members)
      | existing id =>
        refine .pure fun other same => ?_
        cases same
        obtain ⟨single, sealed⟩ := amounts _ rfl
        refine ⟨(sealed id rfl).1, fun isOwn => ?_⟩
        rw [owns] at isOwn
        by_cases one : (nonNull members).length = 1
        · obtain ⟨text, isText⟩ := single one
          rw [traits_of_single isText, traits] at isOwn
          cases isOwn
        · rw [traits_of_several one] at isOwn
          cases isOwn
    | none =>
      have has : c.Has fact.generics (.union members) := .body mem body
      refine (resolveUse_calm enters _ frames s₁ ⟨fact.name, fact.level, fact.generics⟩ "" valid₁
        has).bind valid₁ fun found s₂ _ valid₂ yields => ?_
      cases found with
      | some resolved =>
        refine wrap_calm enters valid₂ mem registers ?_ (yields resolved rfl)
          (by rw [owns]; exact id)
        exact fun parameter listed type default => .default mem listed default
      | none => exact .pure fun _ same => by cases same

omit enters in
theorem addConstant_calm (valid : Valid c s) {constant : Constant} {generics : List String}
    (inScope : InScope c s generics constant.type) :
    Calm c frames pending (withGraph (·.addConstant constant)) s fun id s' =>
      id < s'.graph.nodes.size :=
  .withGraph (.single (.aside (addConstant_aside valid.graph inScope.inside)))
    (addConstant_steps valid.graph inScope.inside).2

theorem declareConstant_calm (valid : Valid c s) (mem : fact ∈ c.facts) {initializer : String}
    {declared : Option TypeExpr} (body : fact.body = .constant initializer declared) :
    Calm c frames pending (declareConstant c enter fact initializer declared) s fun id s' =>
      id < s'.graph.nodes.size := by
  rw [declareConstant]
  refine (initializerValue_calm valid _ _ _).bind valid fun pair s₁ _ valid₁ _ => ?_
  obtain ⟨value, comment⟩ := pair
  have inferred {s : State} (valid : Valid c s) : Calm c frames pending
      (do withGraph (·.addConstant ⟨fact.name, ← inferUse value, value, comment⟩)) s
      fun id s' => id < s'.graph.nodes.size :=
    (inferUse_calm value valid).bind valid fun use _ _ valid' inScope =>
      addConstant_calm valid' inScope
  cases declared with
  | none => exact inferred valid₁
  | some type =>
    refine (resolveUse_calm enters type frames s₁ ⟨c.settings.constantsClass, fact.level, []⟩
      fact.name valid₁ (.constant mem body)).bind valid₁ fun found s₂ _ valid₂ yields => ?_
    cases found with
    | none => exact inferred valid₂
    | some resolved => exact addConstant_calm valid₂ (yields resolved rfl).inScope

end declarations

section places
variable {c : Context} {frames : List Frame} {pending : List Nat} {s : State}
  {enter : Nat → Ingest (Option NodeId)} {place : Nat} {fact : Fact}
  (enters : Entering c (place :: pending) enter) (fresh : place ∉ pending) (valid : Valid c s)
  (there : c.facts[place]? = some fact) (unbuilt : s.built.get? place = none)
include enters fresh valid there unbuilt

omit enters valid unbuilt in
theorem markBuilt_calm {id : NodeId} (denotes : Denotes c s place fact id) :
    Calm c frames pending (markBuilt place id) s fun _ s' =>
      s' = { s with built := s.built.insert place id } := by
  have move := @Move.mark c frames s place fact id there denotes.inside denotes.unbuilt
    denotes.bears
  refine ⟨⟨.single move, fun other member => ?_⟩, fun _ _ => rfl, fun _ same => by cases same⟩
  refine Eq.trans (Table.get?_insert ..) (if_neg ?_)
  rintro rfl
  exact fresh member

theorem declareDictionary_calm {signature : IndexSignature}
    (body : fact.body = .type (.object [] [signature])) (level : Nat) :
    Calm c frames pending
      (declareDictionary c enter place fact ⟨fact.name, level, fact.generics⟩ signature) s
      fun id s' => Denotes c s' place fact id := by
  have mem := List.mem_of_getElem? there
  have registers : (isSolid fact || isAlias fact) = true := by simp [isSolid, isAlias, body]
  have noRecord : objectBody? fact = none := by rw [objectBody?, properties?, body]; rfl
  obtain ⟨key, value⟩ := signature
  have has : c.Has fact.generics value :=
    .part (.body mem body) (List.mem_append_right _ List.mem_cons_self)
  rw [declareDictionary]
  have generics := @parameters_calm c frames (place :: pending) s enter
    ⟨fact.name, level, fact.generics⟩ enters valid fact.typeParameters
    fun parameter listed type default => .default mem listed default
  refine (generics.weaken place).bind valid fun generics s₁ _ valid₁ outcome => ?_
  obtain ⟨⟨-, defaulted⟩, unbuilt₁⟩ := outcome
  refine ((primitiveUse_inScope valid₁ .object fact.generics).weaken place).bind valid₁
    fun placeholder s₂ reaches₁ valid₂ outcome => ?_
  obtain ⟨inScope, unbuilt₂⟩ := outcome
  have defaulted₂ := defaulted.later (reaches₁.later valid₁) valid₁.graph
  have registered : Calm c frames (place :: pending)
      (registerNamed fact (.dictionary key placeholder generics)) s₂ fun id s' =>
        id < s'.graph.nodes.size ∧ (c.Clashes ∨ Owns s'.graph fact id) := by
    refine registerParts_calm valid₂ mem registers rfl rfl defaulted₂ rfl
      (fun _ none => by cases none) fun u listed => ?_
    rw [List.mem_singleton.mp listed]
    exact inScope.inside
  refine (registered.weaken place).bind valid₂ fun id s₃ _ valid₃ outcome => ?_
  obtain ⟨⟨inside, bears⟩, unbuilt₃⟩ := outcome
  rw [unbuilt₂, unbuilt₁, unbuilt] at unbuilt₃
  refine (markBuilt_calm fresh there ⟨inside, .inr ⟨unbuilt₃, noRecord⟩, fun _ => bears⟩).bind
    valid₃ fun _ s₄ reaches₃ valid₄ noted => ?_
  have known : s₄.built.get? place = some id := by
    rw [noted]
    exact Table.get?_insert_self ..
  have later₃ := reaches₃.later valid₃
  have resolving := resolveUse_calm enters value
  have resolved := @dictionaryValue_calm c frames (place :: pending) s₄ enter valid₄ key value
    resolving (fun _ _ _ property _ => resolveUse_calm enters property.type)
    ⟨fact.name, level, fact.generics⟩ has fact.name
  refine (resolved.weaken place).bind valid₄ fun use s₅ reaches₄ valid₅ outcome => ?_
  obtain ⟨inScope₅, known₅⟩ := outcome
  have bears₅ := bears.imp_right fun bears => (bears.later later₃).later (reaches₄.later valid₄)
  have filled : Calm c frames pending
      (Ingest.modifyGraph (·.modifyShape id (setDictionaryValue use))) s₅
      fun _ s' => s'.built.get? place = some id :=
    .modifyGraph (.single (.value bears₅ inScope₅.inside)) (known₅.trans known)
  refine filled.bind valid₅ fun _ s₆ reaches₅ valid₆ noted => .pure ?_
  have later₅ := reaches₅.later valid₅
  exact ⟨valid₆.built place id noted, .inl noted, fun _ => bears₅.imp_right (·.later later₅)⟩

omit enters fresh there unbuilt in
theorem addParameters_calm {id : NodeId} (inside : id < s.graph.nodes.size)
    (bears : c.Clashes ∨ Owns s.graph fact id) {generics : List Parameter}
    {names : List String} (defaulted : Defaulted c s names generics) :
    Calm c frames pending (forIn generics PUnit.unit fun parameter _ => do
        modifyGraph (·.addParameter id parameter)
        return .yield PUnit.unit) s
      fun _ s' => Provides s'.graph id (generics.map Parameter.name) := by
  have start : Later c s s ∧ Provides s.graph id [] :=
    ⟨.refl c s, _, Array.getElem?_eq_getElem inside, fun _ => List.nil_subset _⟩
  refine (Calm.loop (fun done s' => Later c s s' ∧ Provides s'.graph id (done.map Parameter.name))
    valid start fun before parameter after s₁ split valid₁ known => ?_).mono
    fun _ _ _ outcome => outcome.2
  obtain ⟨later, node, found, present⟩ := known
  have listed : parameter ∈ generics := split ▸ List.mem_append_right _ List.mem_cons_self
  have here : (s₁.graph.addParameter id parameter).nodes[id]? =
      some { node with shape := node.shape.addParameter parameter } := by
    rw [Graph.addParameter, reshape_getElem? valid₁, if_pos rfl, found]
    rfl
  have provides : Provides (s₁.graph.addParameter id parameter) id
      ((before ++ [parameter]).map Parameter.name) := by
    refine ⟨_, here, fun record => ?_⟩
    have isRecord : node.shape.isRecord = true := by
      rw [← record]
      exact (Shape.isRecord_of_label (node.shape.grows_addParameter parameter).label).symm
    rw [List.map_append]
    refine List.append_subset.mpr ⟨?_, ?_⟩
    · exact List.Subset.trans (present isRecord) (node.shape.grows_addParameter parameter).generics
    · exact List.cons_subset.mpr ⟨mem_addParameter node.shape isRecord parameter, List.nil_subset _⟩
  have step : Calm c frames pending (modifyGraph (·.addParameter id parameter)) s₁
      fun _ s' => Provides s'.graph id ((before ++ [parameter]).map Parameter.name) :=
    .modifyGraph (.single (.parameter (bears.imp_right (·.later later)) fun u default =>
      ((defaulted parameter listed u default).later later valid.graph).inside)) provides
  exact step.bind valid₁ fun _ s₂ reaches _ provides =>
    .pure ⟨rfl, later.trans (reaches.later valid₁), provides⟩

omit fresh unbuilt in
theorem fillRecord_calm {properties : List PropertyFact} {signatures : List IndexSignature}
    (body : fact.body = .type (.object properties signatures)) {id : NodeId}
    (inside : id < s.graph.nodes.size) (bears : c.Clashes ∨ Owns s.graph fact id) (level : Nat) :
    Calm c (⟨id, some place, ⟨fact.name, fact.generics, properties⟩⟩ :: frames)
      (place :: pending) (do
      for parameter in ← parameters c enter ⟨fact.name, level, fact.generics⟩ fact.typeParameters do
        modifyGraph (·.addParameter id parameter)
      addProperties c enter properties id ⟨fact.name, level, fact.generics⟩
      return id) s fun result s' => result = id ∧
        ∀ fact' ∈ properties, Treated s'.graph id fact.name fact' := by
  have mem := List.mem_of_getElem? there
  let frame : Frame := ⟨id, some place, ⟨fact.name, fact.generics, properties⟩⟩
  have generics := @parameters_calm c (frame :: frames) (place :: pending) _ enter
    ⟨fact.name, level, fact.generics⟩ enters valid fact.typeParameters
    fun parameter listed type default => .default mem listed default
  refine generics.bind valid fun generics s₁ reaches valid₁ outcome => ?_
  obtain ⟨names, defaulted⟩ := outcome
  have later := reaches.later valid
  have inside₁ : id < s₁.graph.nodes.size := later.inside inside
  refine (addParameters_calm valid₁ inside₁ (bears.imp_right (·.later later)) defaulted).bind valid₁
    fun _ s₂ reaches₁ valid₂ provides => ?_
  rw [names] at provides
  have each : ∀ property ∈ properties, Resolving c (place :: pending) enter property.type :=
    fun property _ => resolveUse_calm enters property.type
  have has : ∀ property ∈ properties, c.Has fact.generics property.type := fun property listed =>
    .part (.body mem body) (List.mem_append_left _ (List.mem_map.mpr ⟨property, listed, rfl⟩))
  have added := @addProperties_calm c (frame :: frames) (place :: pending) s₂ enter frame
    List.mem_cons_self ⟨fact.name, level, fact.generics⟩ rfl rfl [] properties rfl each has valid₂
    ((reaches₁.later valid₁).inside inside₁) (fun _ none => by cases none) fun _ => provides
  exact added.bind valid₂ fun _ _ _ _ treated => .pure ⟨rfl, treated⟩

theorem declareRecord_calm {properties : List PropertyFact} {signatures : List IndexSignature}
    (body : fact.body = .type (.object properties signatures))
    (isBody : objectBody? fact = some ⟨fact.name, fact.generics, properties⟩) (level : Nat) :
    Calm c frames pending
      (declareRecord c enter place fact ⟨fact.name, level, fact.generics⟩ properties) s
      fun id s' => Denotes c s' place fact id := by
  have registers : (isSolid fact || isAlias fact) = true := by simp [isSolid, isAlias, body]
  rw [declareRecord]
  have registered : Calm c frames (place :: pending) (registerNamed fact (.record [] [])) s
      fun id s' => id < s'.graph.nodes.size ∧ (c.Clashes ∨ Owns s'.graph fact id) :=
    registerNamed_calm valid (List.mem_of_getElem? there) registers rfl (fun _ => rfl)
      fun _ none => by cases none
  refine (registered.weaken place).bind valid fun id s₁ _ valid₁ outcome => ?_
  obtain ⟨⟨inside, bears⟩, unbuilt₁⟩ := outcome
  rw [unbuilt] at unbuilt₁
  have opens : Move c ⟨frames, s₁⟩
      ⟨⟨id, some place, ⟨fact.name, fact.generics, properties⟩⟩ :: frames,
        { s₁ with built := s₁.built.insert place id }⟩ :=
    .enter there isBody unbuilt₁ inside bears
  have valid₂ := opens.valid valid₁
  have marked : (markBuilt place id).run.run s₁ =
      (.ok ⟨⟩, { s₁ with built := s₁.built.insert place id }) := rfl
  refine .framed (run_bind_ok marked) (.single opens) (fun other member => ?_)
    ((fillRecord_calm enters valid₂ there body inside bears level).weaken place)
    fun result s' reaches outcome => ?_
  · refine Eq.trans (Table.get?_insert ..) (if_neg ?_)
    rintro rfl
    exact fresh member
  obtain ⟨⟨rfl, treated⟩, known⟩ := outcome
  have noted : s'.built.get? place = some result := known.trans (Table.get?_insert_self ..)
  have later := reaches.later valid₂
  refine ⟨.close treated fun none => (by cases none), later.inside inside, .inl noted, fun _ => ?_⟩
  exact bears.imp_right fun owns => Owns.later later owns

theorem declareObject_calm {properties : List PropertyFact} {signatures : List IndexSignature}
    (body : fact.body = .type (.object properties signatures)) :
    Calm c frames pending (declareType c enter place fact (.object properties signatures)) s
      fun found s' => ∀ id, found = some id → Denotes c s' place fact id := by
  by_cases dictionary : ∃ signature, properties = [] ∧ signatures = [signature]
  · obtain ⟨signature, rfl, rfl⟩ := dictionary
    rw [declareType]
    refine (declareDictionary_calm enters fresh valid there unbuilt body fact.level).bind valid
      fun id _ _ _ denotes => .pure fun other same => ?_
    cases same
    exact denotes
  · have record : ∀ signature, properties = [] → signatures = [signature] → False :=
      fun signature empty single => dictionary ⟨signature, empty, single⟩
    rw [declareType]
    · have isBody : objectBody? fact = some ⟨fact.name, fact.generics, properties⟩ := by
        rw [objectBody?, properties_of_body body record]
        rfl
      refine (declareRecord_calm enters fresh valid there unbuilt body isBody fact.level).bind valid
        fun id _ _ _ denotes => .pure fun other same => ?_
      cases same
      exact denotes
    · exact record

omit enters fresh valid there in
theorem Calm.denotes (noRecord : objectBody? fact = none) {m : Ingest (Option NodeId)}
    (calm : Calm c frames (place :: pending) m s fun found s' =>
      ∀ id, found = some id → Carries c s' fact id) :
    Calm c frames pending m s fun found s' =>
      ∀ id, found = some id → Denotes c s' place fact id := by
  refine (calm.weaken place).mono fun found s' _ outcome id same => ?_
  obtain ⟨outcome, built⟩ := outcome
  rw [unbuilt] at built
  exact ⟨(outcome id same).1, .inr ⟨built, noRecord⟩, (outcome id same).2⟩

theorem declareType_calm {type : TypeExpr} (body : fact.body = .type type) :
    Calm c frames pending (declareType c enter place fact type) s fun found s' =>
      ∀ id, found = some id → Denotes c s' place fact id := by
  have mem := List.mem_of_getElem? there
  let scope : Scope := ⟨fact.name, fact.level, fact.generics⟩
  have has : c.Has scope.generics type := .body mem body
  have defaults : ∀ parameter ∈ fact.typeParameters, ∀ type, parameter.default = some type →
      c.Has scope.generics type := fun parameter listed type default => .default mem listed default
  cases type with
  | primitive kind =>
    rw [declareType]
    refine Calm.denotes unbuilt (by rw [objectBody?, properties?, body]; rfl) ?_
    refine (primitive_calm valid kind).bind valid fun id _ _ _ sealed => .pure fun other same => ?_
    cases same
    exact ⟨sealed.1, by simp [ownsNode, body, TypeExpr.memberNames?, traits]⟩
  | stringLiteral _ | numberLiteral _ | booleanLiteral _ =>
    rw [declareType]
    refine Calm.denotes unbuilt (by rw [objectBody?, properties?, body]; rfl) ?_
    refine (resolveUse_calm enters _ frames s scope "" valid has).bind valid
      fun found _ _ _ yields => .pure fun id same => ?_
    obtain ⟨resolved, rfl, isNode⟩ := Option.bind_eq_some_iff.mp same
    exact ⟨(yields resolved rfl).inScope.inside id (mem_nodes_of_nodeId? isNode),
      by simp [ownsNode, body, TypeExpr.memberNames?, traits]⟩
  | enumeration entries =>
    have registers : (isSolid fact || isAlias fact) = true := by simp [isSolid, isAlias, body]
    rw [declareType]
    refine Calm.denotes unbuilt (by rw [objectBody?, properties?, body]; rfl) ?_
    refine (enumMembers_calm valid _ _).bind valid fun members s₁ _ valid₁ _ => ?_
    exact .carries valid₁ (registerEnum_calm valid₁ mem registers members)
  | union members =>
    exact (declareUnion_calm enters valid mem body).denotes unbuilt
      (by rw [objectBody?, properties?, body]; rfl)
  | object properties signatures => exact declareObject_calm enters fresh valid there unbuilt body
  | array element =>
    have registers : (isSolid fact || isAlias fact) = true := by simp [isSolid, isAlias, body]
    rw [declareType]
    refine Calm.denotes unbuilt (by rw [objectBody?, properties?, body]; rfl) ?_
    refine (parameters_calm enters valid defaults).bind valid fun generics s₁ _ valid₁ outcome => ?_
    refine (resolveUse_calm enters element frames s₁ scope "Item" valid₁
      (.part has List.mem_cons_self)).bind valid₁ fun found s₂ reaches₁ valid₂ yields => ?_
    refine (orObject_calm valid₂ fun r same => (yields r same).inScope).bind valid₂
      fun use s₃ reaches₂ valid₃ inScope => .carries valid₃ ?_
    have later := (reaches₁.later valid₁).trans (reaches₂.later valid₂)
    refine registerParts_calm valid₃ mem registers rfl rfl (outcome.2.later later valid₁.graph) rfl
      (fun _ none => by cases none) fun u listed => ?_
    rw [List.mem_singleton.mp listed]
    exact inScope.inside
  | tuple elements =>
    have registers : (isSolid fact || isAlias fact) = true := by simp [isSolid, isAlias, body]
    rw [declareType]
    refine Calm.denotes unbuilt (by rw [objectBody?, properties?, body]; rfl) ?_
    refine (parameters_calm enters valid defaults).bind valid fun generics s₁ _ valid₁ outcome => ?_
    have items := @resolveItems_calm c frames (place :: pending) s₁ enter elements
      (fun type _ => resolveUse_calm enters type) valid₁ scope
      (fun type listed => .part has listed) 1
    refine items.bind valid₁ fun uses s₂ reaches valid₂ parts => .carries valid₂ ?_
    exact registerParts_calm valid₂ mem registers rfl rfl
      (outcome.2.later (reaches.later valid₁) valid₁.graph) rfl (fun _ none => by cases none)
      fun u listed => (parts u listed).inside
  | reference _ _ _ | enumLiteral _ _ _ | parameter _ =>
    have registers : (isSolid fact || isAlias fact) = true := by simp [isSolid, isAlias, body]
    rw [declareType]
    refine Calm.denotes unbuilt (by rw [objectBody?, properties?, body]; rfl) ?_
    refine (resolveUse_calm enters _ frames s scope "" valid has).bind valid
      fun found s₁ _ valid₁ yields => ?_
    cases found with
    | some resolved =>
      exact wrap_calm enters valid₁ mem registers defaults (yields resolved rfl)
        (by simp [ownsNode, body, TypeExpr.memberNames?]; exact id)
    | none =>
      exact (report_calm _ _ _).bind valid₁ fun _ _ _ _ _ => .pure fun _ same => by cases same

theorem declareFact_calm :
    Calm c frames pending (declareFact c enter place fact) s fun found s' =>
      ∀ id, found = some id → Denotes c s' place fact id := by
  rw [declareFact]
  cases body : fact.body with
  | constant initializer declared =>
    refine Calm.denotes unbuilt (by rw [objectBody?, properties?, body]; rfl) ?_
    refine (declareConstant_calm enters valid (List.mem_of_getElem? there) body).bind valid
      fun id _ _ _ inside => .pure fun other same => ?_
    cases same
    exact ⟨inside, by simp [ownsNode, body]⟩
  | type type => exact declareType_calm enters fresh valid there unbuilt body

end places

theorem reportCycle_calm {c : Context} {frames : List Frame} {pending : List Nat} {s : State}
    (valid : Valid c s) (place : Nat) :
    Calm c frames pending (reportCycle c place) s fun found s' =>
      ∀ id, found = some id → s'.built.get? place = some id := by
  rw [reportCycle]
  cases c.facts[place]? with
  | none => exact .pure fun _ same => by cases same
  | some fact =>
    exact (report_calm _ _ _).bind valid fun _ _ _ _ _ => .pure fun _ same => by cases same

theorem built?_calm {c : Context} {frames : List Frame} {pending : List Nat} {s : State}
    (valid : Valid c s) {place : Nat} {rest : Ingest (Option NodeId)}
    (unknown : s.built.get? place = none → Calm c frames pending rest s fun found s' =>
      ∀ id, found = some id → s'.built.get? place = some id) :
    Calm c frames pending (do
      match ← built? place with
      | some id => return some id
      | none => rest) s fun found s' => ∀ id, found = some id → s'.built.get? place = some id := by
  have look : Calm c frames pending (built? place) s fun found s' =>
      s' = s ∧ found = s.built.get? place := by
    refine ⟨.refl, fun found same => ⟨rfl, ?_⟩, fun _ same => by cases same⟩
    cases same
    cases s.built.get? place with
    | none => rfl
    | some id => exact congrArg some (valid.graph.resolve_eq id)
  refine look.bind valid fun found s' _ _ outcome => ?_
  obtain ⟨rfl, isFound⟩ := outcome
  cases found with
  | none => exact unknown isFound.symm
  | some id =>
    refine .pure fun other same => ?_
    cases same
    exact isFound.symm

theorem declaration_calm (c : Context) (level : Nat) (pending : List Nat) :
    Entering c pending (declaration c level pending) := by
  induction level generalizing pending with
  | zero =>
    intro frames s place valid
    rw [declaration]
    exact built?_calm valid fun _ => reportCycle_calm valid place
  | succ level ih =>
    intro frames s place valid
    rw [declaration]
    refine built?_calm valid fun unbuilt => ?_
    split
    · exact reportCycle_calm valid place
    · rename_i fresh
      rw [List.contains_iff_mem] at fresh
      cases there : c.facts[place]? with
      | none => exact .pure fun _ same => by cases same
      | some fact =>
        refine (declareFact_calm (ih (place :: pending)) fresh valid there unbuilt).bind valid
          fun found s₁ _ valid₁ denotes => ?_
        cases found with
        | none => exact .pure fun _ same => by cases same
        | some id =>
          refine (markBuilt_calm fresh there (denotes id rfl)).bind valid₁
            fun _ s₂ _ _ noted => .pure fun other same => ?_
          cases same
          rw [noted]
          exact Table.get?_insert_self ..

theorem buildFacts_calm {c : Context} {s : State} (valid : Valid c s) :
    Calm c [] [] (buildFacts c) s fun _ _ => True := by
  rw [buildFacts]
  refine Calm.bind valid (.forEach valid fun place s₁ valid₁ => ?_) fun _ _ _ _ _ => .pure trivial
  exact ((declaration_calm c _ [] [] s₁ place valid₁).discard valid₁).bind valid₁
    fun _ _ _ _ _ => .pure rfl

theorem valid_empty (c : Context) : Valid c { graph := .empty } where
  graph := empty_intact
  built _ _ found := by cases found
  keyed := ⟨fun _ _ found => (by cases found), fun _ _ found => (by cases found),
    fun _ _ found => (by cases found), fun _ _ found => (by cases found),
    fun _ _ found => by cases found⟩

/-- An ingest into an empty graph is a chain of moves. If it fails, some declaration has no name. -/
theorem ingestion_moves (settings : Settings) (facts : List Fact) :
    Moves ⟨settings, facts⟩ ⟨[], { graph := .empty }⟩ ⟨[], (ingestion settings facts).2⟩ ∧
      ∀ e, (ingestion settings facts).1 = .error e → ¬ Context.Named ⟨settings, facts⟩ := by
  have calm := buildFacts_calm (valid_empty ⟨settings, facts⟩)
  exact ⟨calm.1.moves, calm.2.2⟩

end Ingest

theorem Graph.ingest_steps (settings : Settings) (facts : List Fact) :
    Steps .empty (Graph.empty.ingest settings facts).2 :=
  (Ingest.ingestion_moves settings facts).1.steps

end TypeLoom
