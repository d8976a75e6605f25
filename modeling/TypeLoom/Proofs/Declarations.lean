import TypeLoom.Proofs.TypeUses

/-! Every declaration that is entered is built if it can be, and a record is built with exactly the
properties whose types resolve, provided that no property asks for a declaration that is still
waiting for the record. -/
namespace TypeLoom.Ingest
open TypeLoom.Graph TypeLoom.Fact

section parts
variable {c : Context} {pending : List Nat} {enter : Nat → Ingest (Option NodeId)} {s : State}
  {scope : Scope} (orderly : Orderly c.facts) (enters : Enters c pending enter)
  (inv : Inv c pending s)
include orderly enters inv

theorem parameters_fine {generics : List TypeParameter} (leads : Leads c pending s
    (generics.flatMap fun parameter =>
      (parameter.default.map (TypeExpr.names scope.generics)).getD [])) :
    Fine c pending none (parameters c enter scope generics) s fun _ _ => True := by
  induction generics generalizing s with
  | nil => exact .pure inv trivial
  | cons parameter rest ih =>
    rw [List.flatMap_cons] at leads
    have below := leads.mono (List.subset_append_right _ _)
    rw [parameters]
    cases default : parameter.default with
    | none =>
      dsimp only
      rw [pure_bind]
      exact (ih inv below).bind fun _ _ _ inv₁ _ => .pure inv₁ trivial
    | some type =>
      rw [default] at leads
      have here := leads.mono (List.subset_append_left _ _)
      refine ((answers orderly enters type).fine inv here parameter.name).bind
        fun found s₁ grows₁ inv₁ _ => ?_
      rw [pure_bind]
      exact (ih inv₁ (below.later grows₁)).bind fun _ _ _ inv₂ _ => .pure inv₂ trivial

theorem aliasOrWrap_fine {fact : Fact} (mem : fact ∈ c.facts)
    (generics : scope.generics = fact.generics)
    (leads : Leads c pending s fact.defaultNames) (type : TypeUse) :
    Fine c pending none (aliasOrWrap c enter fact scope type) s fun _ _ => True := by
  rw [defaultNames, ← generics] at leads
  have generic := parameters_fine orderly enters inv leads
  rw [aliasOrWrap]
  split
  · exact (Fine.withGraph inv (primitive_adds _ _)).mono fun _ _ _ _ => trivial
  · split
    · refine generic.bind fun _ s₁ _ inv₁ _ => ?_
      exact (registerNamed_fine orderly inv₁ mem rfl fun _ => rfl).mono fun _ _ _ _ => trivial
    · split
      · exact .pure inv trivial
      · refine generic.bind fun _ s₁ _ inv₁ _ => ?_
        exact (registerNamed_fine orderly inv₁ mem rfl fun _ => rfl).mono fun _ _ _ _ => trivial

end parts

/-! ### One declaration -/

/-- What comes of a declaration: its node, or the proof that it has none. -/
def Outcome (c : Context) (pending : List Nat) (fact : Fact) (s : State) (found : Option NodeId)
    (s' : State) : Prop :=
  match found with
  | some id => Stands (declared c.facts) s'.graph fact id ∧
      Complete (declared c.facts) s'.graph fact id ∧
      (fact.isImmediate = true → s.graph.nodes.size ≤ id)
  | none => ClearFact (declared c.facts) s'.graph fact →
      ¬ Builds (declared c.facts) (Blocked c pending s) fact

theorem outcome_some {c : Context} {pending : List Nat} {fact : Fact} {s s' : State} {id : NodeId}
    (other : fact.isImmediate = false)
    (builds : ClearFact (declared c.facts) s'.graph fact → Builds (declared c.facts) nothing fact) :
    Outcome c pending fact s (some id) s' := by
  obtain ⟨noRecord, noEnum⟩ := isImmediate_eq_false.mp other
  refine ⟨⟨builds, fun immediate => ?_, fun names found => ?_⟩, fun properties found => ?_,
    fun immediate => ?_⟩
  · rw [other] at immediate
    cases immediate
  · rw [noEnum] at found
    cases found
  · rw [noRecord] at found
    cases found
  · rw [other] at immediate
    cases immediate

section declare
variable {c : Context} {pending : List Nat} {place : Nat} {fact : Fact}
  {enter : Nat → Ingest (Option NodeId)} {s : State} (orderly : Orderly c.facts)
  (there : c.facts[place]? = some fact) (enters : Enters c (place :: pending) enter)
  (inv : Inv c (place :: pending) s) (unbuilt : s.built.get? place = none)
  (leads : Leads c pending s [fact.name])

include there leads in
/-- What a declaration refers to is led to by all that lead to the declaration, and by itself as
long as it has no node. -/
theorem Leads.inside {own : Option NodeId} {s₁ : State} (grows : Grows c own s s₁)
    {names : List String}
    (subset : names ⊆ fact.names) (early : s₁.built.get? place = none → names ⊆ fact.earlyNames) :
    Leads c (place :: pending) s₁ names := by
  have mem : fact ∈ declared c.facts := List.mem_of_getElem? there
  intro other inside waiting fact' there' name called
  rw [List.mem_cons] at inside
  obtain rfl | inside := inside
  · rw [there, Option.some_inj] at there'
    subst there'
    exact ⟨name, ⟨fact, mem, rfl, early waiting called⟩, .refl⟩
  · obtain ⟨first, refers, path⟩ :=
      leads other inside (grows.unbuilt waiting) fact' there' fact.name (List.mem_singleton_self _)
    exact ⟨first, refers, path.tail ⟨fact, mem, rfl, subset called⟩⟩

include there leads in
theorem Leads.early {own : Option NodeId} {s₁ : State} (grows : Grows c own s s₁)
    {names : List String}
    (subset : names ⊆ fact.earlyNames) : Leads c (place :: pending) s₁ names :=
  leads.inside there grows (List.Subset.trans subset fact.earlyNames_subset_names) fun _ => subset

include there in
theorem built_insert_cases {built : Table Nat NodeId} {other : Nat} {fact' : Fact}
    {id known : NodeId}
    (there' : c.facts[other]? = some fact')
    (found : (built.insert place id).get? other = some known) :
    (other = place ∧ fact' = fact ∧ known = id) ∨
      (other ≠ place ∧ built.get? other = some known) := by
  rw [Table.get?_insert] at found
  split_ifs at found with same
  · subst same
    rw [there, Option.some_inj] at there'
    cases found
    exact .inl ⟨rfl, there'.symm, rfl⟩
  · exact .inr ⟨same, found⟩

include there in
theorem Grows.markBuilt {own : Option NodeId} {s₁ : State} {id : NodeId} (grows : Grows c own s s₁)
    (unbuilt : s.built.get? place = none)
    (late : fact.isImmediate = true → s.graph.nodes.size ≤ id) :
    Grows c own s { s₁ with built := s₁.built.insert place id } where
  size := grows.size
  nodes := grows.nodes
  persists := grows.persists
  built other known found := by
    have ne : other ≠ place := by
      rintro rfl
      rw [unbuilt] at found
      cases found
    exact (s₁.built.get?_insert_of_ne id ne).trans (grows.built other known found)
  fresh other fact' known there' immediate found := by
    obtain ⟨-, rfl, rfl⟩ | ⟨-, found⟩ := built_insert_cases there there' found
    · exact .inr (late immediate)
    · exact grows.fresh other fact' known there' immediate found

include there in
theorem Inv.markBuilt {later : List Nat} {id : NodeId} (inv : Inv c (place :: pending) s)
    (stands : Stands (declared c.facts) s.graph fact id)
    (complete : place ∉ later → Complete (declared c.facts) s.graph fact id)
    (fewer : ∀ other, other ≠ place → other ∉ later → other ∉ pending) :
    Inv c later { s with built := s.built.insert place id } where
  tidy := inv.tidy
  stands other fact' known there' found := by
    obtain ⟨-, rfl, rfl⟩ | ⟨-, found⟩ := built_insert_cases there there' found
    · exact stands
    · exact inv.stands other fact' known there' found
  complete other fact' known there' found done := by
    obtain ⟨rfl, rfl, rfl⟩ | ⟨same, found⟩ := built_insert_cases there there' found
    · exact complete done
    · refine inv.complete other fact' known there' found ?_
      rw [List.mem_cons, not_or]
      exact ⟨same, fewer other same done⟩

include orderly there unbuilt in
/-- A declaration that has got its node goes on to change only that. -/
theorem shell_fine {s₀ : State} (start : Grows c none s s₀) (inv : Inv c (place :: pending) s₀)
    {β : Type} {f : NodeId → Ingest β} {post : β → State → Prop} {shape : Shape}
    (noEnum : fact.memberNames? = none) (builds : Builds (declared c.facts) nothing fact)
    (named : shape.isNamed = true) (other : ∀ taken, sameUnion shape taken = false)
    (next : ∀ id s₁, Grows c none s s₁ → Inv c (place :: pending) s₁ →
      Owned c (place :: pending) s₁ id → s₁.built.get? place = some id → s.graph.nodes.size ≤ id →
      (∃ placed, s₁.graph.nodes[id]? = some placed ∧ placed.shape = shape) →
      Fine c (place :: pending) (some id) (f id) s₁ post) :
    Ensures (do
      let id ← registerNamed fact shape
      markBuilt place id
      f id) s₀ fun result s' =>
        Grows c none s s' ∧ Inv c (place :: pending) s' ∧ post result s' := by
  refine Ensures.bind (@registerNamed_fine c (place :: pending) none s₀ orderly inv fact
    (List.mem_of_getElem? there) shape named other) ?_
  rintro id s₁ ⟨grows₁, inv₁, new, same, placed, here, isShape, -⟩
  have late : s.graph.nodes.size ≤ id := start.size.trans new.ge
  have inside : id < s₁.graph.nodes.size := (Array.getElem?_eq_some_iff.mp here).1
  have stands : Stands (declared c.facts) s₁.graph fact id :=
    ⟨fun _ => builds, fun _ => inside, fun names found => by rw [noEnum] at found; cases found⟩
  have grows₂ := (start.trans grows₁).markBuilt there unbuilt fun _ => late
  have inv₂ := @Inv.markBuilt c pending place fact s₁ there (place :: pending) id inv₁ stands
    (fun outside => absurd List.mem_cons_self outside) (fun _ ne outside mem =>
      outside (List.mem_cons_of_mem place mem))
  have owned : Owned c (place :: pending) { s₁ with built := s₁.built.insert place id } id := by
    intro other fact' there' found
    rw [same] at found
    obtain ⟨rfl, rfl, -⟩ | ⟨-, found⟩ := built_insert_cases there there' found
    · exact ⟨noEnum, fun _ => List.mem_cons_self⟩
    · exact inv.owned_new new.ge other fact' there' found
  refine Ensures.mono (next id _ grows₂ inv₂ owned (Table.get?_insert_self _ _ _) late
    ⟨placed, here, isShape⟩) ?_
  rintro _ s₃ ⟨grows₃, inv₃, holds⟩
  -- The node is changed later on, but it was not there in `s`.
  exact ⟨(grows₂.weaken.trans grows₃).forget late, inv₃, holds⟩

include there leads in
theorem resolves_pending {properties : List PropertyFact}
    (grounded : Grounded (declared c.facts) fact) (isRecord : fact.properties? = some properties)
    {own : Option NodeId} {s₁ : State} {id : NodeId}
    (grows : Grows c own s s₁) (built : s₁.built.get? place = some id) {property : PropertyFact}
    (mem : property ∈ properties)
    (resolves : Resolves (declared c.facts) nothing fact.generics property.type) :
    Resolves (declared c.facts) (Blocked c (place :: pending) s₁) fact.generics property.type := by
  refine resolves.unasked fun name asks blocked => ?_
  refine grounded properties isRecord property mem resolves name asks ?_
  obtain ⟨other, inside, waiting, fact', there', rfl⟩ := blocked
  rw [List.mem_cons] at inside
  obtain rfl | inside := inside
  · rw [built] at waiting
    cases waiting
  · exact leads other inside (grows.unbuilt waiting) fact' there' fact.name
      (List.mem_singleton_self _)

include orderly there enters inv unbuilt leads in
theorem declareRecord_fine {properties : List PropertyFact}
    (isRecord : fact.properties? = some properties) {scope : Scope}
    (generics : scope.generics = fact.generics) :
    Fine c (place :: pending) none (declareRecord c enter place fact scope properties) s
      fun id s' => Outcome c (place :: pending) fact s (some id) s' := by
  obtain ⟨signatures, body, other⟩ := body_of_properties isRecord
  have noEnum : fact.memberNames? = none := by rw [Fact.memberNames?, body]; rfl
  have builds : Builds (declared c.facts) nothing fact := ⟨_, body, .inr (.whole rfl)⟩
  have names : fact.names = fact.defaultNames ++ namesOfProperties fact.generics properties := by
    rw [Fact.names, body]
    exact congrArg _ (TypeExpr.names_record other)
  rw [declareRecord]
  refine shell_fine orderly there unbuilt (.refl c none s) inv noEnum builds rfl (fun _ => rfl) ?_
  intro id s₁ grows₁ inv₁ owned₁ built₁ late given
  obtain ⟨placed, here, shape⟩ := given
  have record₁ : RecordAt s₁.graph id [] := ⟨placed, [], here, shape⟩
  have below : ∀ {s₂}, Grows c (some id) s₁ s₂ → ∀ {names}, names ⊆ fact.names →
      Leads c (place :: pending) s₂ names := fun {s₂} grows₂ {names} subset =>
    leads.inside there (grows₁.weaken.trans grows₂) subset fun waiting => by
      rw [grows₂.built place id built₁] at waiting
      cases waiting
  have leads₁ : Leads c (place :: pending) s₁ fact.defaultNames :=
    below (.refl c _ s₁) (names ▸ List.subset_append_left _ _)
  rw [defaultNames, ← generics] at leads₁
  refine (parameters_fine orderly enters inv₁ leads₁).before fun parameters s₂ grows₂ inv₂ _ => ?_
  refine (addParameters_fine inv₂ (owned₁.later record₁.inside grows₂) (record₁.later grows₂)
    parameters fun parameter => parameter).bind fun _ s₃ grows₃ inv₃ record₃ => ?_
  have grows₁₃ := grows₂.weaken.trans grows₃
  have leads₃ : Leads c (place :: pending) s₃ (namesOfProperties fact.generics properties) :=
    below grows₁₃ (names ▸ List.subset_append_right _ _)
  rw [← generics] at leads₃
  refine (addProperties_fine (fun property _ => answers orderly enters property.type) inv₃
    (owned₁.later record₁.inside grows₁₃) record₃ leads₃).bind
    fun _ s₄ grows₄ inv₄ added => ?_
  obtain ⟨own, record₄, collects⟩ := added
  refine .pure inv₄ ⟨⟨fun _ => builds, fun _ => record₄.inside, ?_⟩, ?_, fun _ => late⟩
  · intro names found
    rw [noEnum] at found
    cases found
  · intro properties' found
    rw [isRecord, Option.some_inj] at found
    subst found
    obtain ⟨node, parameters', at₄, shape₄⟩ := record₄
    refine ⟨node, own, parameters', at₄, shape₄, fun grounded clear name => ?_⟩
    rw [generics] at collects
    have all := collects clear
    constructor
    · intro mem
      exact (all.sound name mem).resolve_left List.not_mem_nil
    · rintro ⟨property, mem, rfl, resolves⟩
      exact all.complete property mem (resolves_pending there leads grounded isRecord
        (grows₁.weaken.trans grows₁₃) (grows₁₃.built place id built₁) mem resolves)

include orderly there enters inv unbuilt leads in
theorem declareDictionary_fine {signature : IndexSignature}
    (body : fact.body = .type (.object [] [signature])) {scope : Scope}
    (generics : scope.generics = fact.generics) :
    Fine c (place :: pending) none (declareDictionary c enter place fact scope signature) s
      fun id s' => Outcome c (place :: pending) fact s (some id) s' := by
  obtain ⟨key, value⟩ := signature
  have noEnum : fact.memberNames? = none := by rw [Fact.memberNames?, body]; rfl
  have noRecord : fact.properties? = none := by rw [properties?, body]
  have other : fact.isImmediate = false := isImmediate_eq_false.mpr ⟨noRecord, noEnum⟩
  have builds : Builds (declared c.facts) nothing fact := ⟨_, body, .inr (.whole rfl)⟩
  have names : fact.names = fact.defaultNames ++ value.names fact.generics := by
    rw [Fact.names, body]
    dsimp only
    rw [TypeExpr.names, IndexSignature.names]
  have early : fact.earlyNames = fact.defaultNames := by
    rw [earlyNames, other, body]
    rfl
  have leads₀ : Leads c (place :: pending) s fact.defaultNames :=
    leads.inside there (.refl c none s) (names ▸ List.subset_append_left _ _) fun _ =>
      early ▸ List.Subset.refl _
  rw [defaultNames, ← generics] at leads₀
  rw [declareDictionary]
  refine Ensures.bind (parameters_fine orderly enters inv leads₀) ?_
  rintro parameters s₁ ⟨grows₁, inv₁, -⟩
  refine Ensures.bind (@primitiveUse_fine c (place :: pending) none s₁ inv₁ .object) ?_
  rintro placeholder s₂ ⟨grows₂, inv₂, -⟩
  refine shell_fine orderly there unbuilt (grows₁.trans grows₂) inv₂ noEnum builds rfl
    (fun _ => rfl) ?_
  intro id s₃ grows₃ inv₃ owned₃ built₃ late given
  obtain ⟨placed, here, shape⟩ := given
  have inside : id < s₃.graph.nodes.size := (Array.getElem?_eq_some_iff.mp here).1
  have leads₃ : Leads c (place :: pending) s₃ (value.names fact.generics) :=
    leads.inside there grows₃ (names ▸ List.subset_append_right _ _) fun waiting => by
      rw [built₃] at waiting
      cases waiting
  rw [← generics] at leads₃
  refine (dictionaryValue_fine (answers orderly enters value)
    (fun _ _ _ property _ => answers orderly enters property.type) inv₃ leads₃ fact.name).before
    fun use s₄ grows₄ inv₄ _ => ?_
  have here₄ := (grows₄.nodes id inside (by simp)).trans here
  have solid : ∀ arity, placed.shape ≠ .classUnion arity := by
    simp [shape]
  refine (modifyShape_fine inv₄ (owned₃.later inside grows₄) here₄ solid
    (steady_setDictionaryValue use)).bind fun _ s₅ _ inv₅ _ => ?_
  exact .pure inv₅ (outcome_some other fun _ => builds)

section later
variable {s₀ : State} (start : Grows c none s s₀) (inv₀ : Inv c (place :: pending) s₀)
include orderly there start inv₀

theorem registerEnum_fine {members : List Member} (noRecord : fact.properties? = none)
    (builds : Builds (declared c.facts) nothing fact)
    (all : ∀ names, fact.memberNames? = some names → ∀ member ∈ names,
      hasMember member (.stringUnion members) = true) :
    Fine c (place :: pending) none (do return some (← registerNamed fact (.stringUnion members))) s₀
      (Outcome c (place :: pending) fact s) := by
  refine (registerNamed_fine orderly inv₀ (List.mem_of_getElem? there) rfl fun _ => rfl).bind ?_
  rintro id s₁ grows₁ inv₁ ⟨new, -, placed, here, shape, given⟩
  refine .pure inv₁ ⟨⟨fun _ => builds, fun _ => (Array.getElem?_eq_some_iff.mp here).1, ?_⟩, ?_,
    fun _ => start.size.trans new.ge⟩
  · intro names found
    refine ⟨placed, here, ?_, fun member mem => ?_⟩
    · rw [← given]
      exact placed.isCalled_givenName
    · rw [shape]
      exact all names found member mem
  · intro properties found
    rw [noRecord] at found
    cases found

include enters leads in
theorem resolveBody_fine {type : TypeExpr} (body : fact.body = .type type)
    (notArray : type.isArray = false)
    (early : fact.earlyNames = fact.defaultNames ++ type.names fact.generics)
    {scope : Scope} (generics : scope.generics = fact.generics) :
    Fine c (place :: pending) none (resolveUse c enter type scope "") s₀ fun found s' =>
      ClearFact (declared c.facts) s'.graph fact →
        (found.isSome = true → Builds (declared c.facts) nothing fact) ∧
        (found.isSome = false →
          ¬ Builds (declared c.facts) (Blocked c (place :: pending) s) fact) := by
  have subset : type.names fact.generics ⊆ fact.earlyNames := early ▸ List.subset_append_right _ _
  have leads₀ : Leads c (place :: pending) s₀ (type.names fact.generics) :=
    leads.early there start subset
  rw [← generics] at leads₀
  refine (answers orderly enters type scope "" s₀ inv₀ leads₀).mono
    fun found s₁ _ decides clear => ?_
  have agrees := (decides (generics ▸ clear type body notArray)).earlier start
  rw [generics] at agrees
  refine ⟨fun isFound => ⟨type, body, .inr (agrees.1 isFound)⟩, ?_⟩
  rintro missing ⟨other, isBody, array | resolves⟩
  · rw [body] at isBody
    cases isBody
    rw [notArray] at array
    cases array
  · rw [body] at isBody
    cases isBody
    exact agrees.2 missing resolves

include enters leads in
theorem alias_fine {type : TypeExpr}
    (early : fact.earlyNames = fact.defaultNames ++ type.names fact.generics)
    (other : fact.isImmediate = false) {scope : Scope} (generics : scope.generics = fact.generics)
    (builds : ClearFact (declared c.facts) s₀.graph fact → Builds (declared c.facts) nothing fact)
    (use : TypeUse) :
    Fine c (place :: pending) none (do return some (← aliasOrWrap c enter fact scope use)) s₀
      (Outcome c (place :: pending) fact s) := by
  have subset : fact.defaultNames ⊆ fact.earlyNames := early ▸ List.subset_append_left _ _
  have leads₀ : Leads c (place :: pending) s₀ fact.defaultNames :=
    leads.early there start subset
  refine (aliasOrWrap_fine orderly enters inv₀ (List.mem_of_getElem? there) generics leads₀
    use).bind fun id s₁ grows₁ inv₁ _ => ?_
  exact .pure inv₁ (outcome_some other fun clear => builds (clear.earlier grows₁.persists))

end later

include orderly there enters inv leads in
theorem declareAlias_fine {type : TypeExpr} (body : fact.body = .type type)
    (notArray : type.isArray = false) (other : fact.isImmediate = false)
    (early : fact.earlyNames = fact.defaultNames ++ type.names fact.generics) {scope : Scope}
    (generics : scope.generics = fact.generics) :
    Fine c (place :: pending) none (do
      match ← resolveUse c enter type scope "" with
      | some resolved => return some (← aliasOrWrap c enter fact scope resolved.type)
      | none =>
        report .unresolvedType fact.name "declaration body could not be resolved"
        return none) s (Outcome c (place :: pending) fact s) := by
  refine (resolveBody_fine orderly there enters leads (.refl c none s) inv body notArray early
    generics).bind fun resolved s₁ grows₁ inv₁ decides => ?_
  cases resolved with
  | none =>
    refine (report_fine inv₁ _ _ _).bind fun _ s₂ grows₂ inv₂ _ => ?_
    exact .pure inv₂ fun clear => (decides (clear.earlier grows₂.persists)).2 rfl
  | some resolved =>
    exact alias_fine orderly there enters leads grows₁ inv₁ early other generics
      (fun clear => (decides clear).1 rfl) resolved.type

include inv in
theorem declareLiteral_fine (other : fact.isImmediate = false)
    (builds : Builds (declared c.facts) nothing fact) (kind : Primitive) :
    Fine c (place :: pending) none (do
      return (← (do return some (⟨← primitiveUse kind, false⟩ : Resolved))).bind
        fun r => r.type.nodeId?) s
      (Outcome c (place :: pending) fact s) := by
  have resolved : Fine c (place :: pending) none
      (do return some (⟨← primitiveUse kind, false⟩ : Resolved)) s
      fun found _ => ∃ id, found = some ⟨.ofNode id, false⟩ :=
    (primitiveUse_fine inv kind).bind fun _ _ _ inv₁ ⟨id, same⟩ => .pure inv₁ ⟨id, by rw [same]⟩
  refine resolved.bind ?_
  rintro _ s₁ - inv₁ ⟨id, rfl⟩
  exact .pure inv₁ (outcome_some other fun _ => builds)

include orderly there enters inv leads in
theorem declareUnion_fine {members : List TypeExpr} (body : fact.body = .type (.union members)) :
    Fine c (place :: pending) none (declareType c enter place fact (.union members)) s
      (Outcome c (place :: pending) fact s) := by
  have here : Grows c none s s := .refl c none s
  have noRecord : fact.properties? = none := by rw [properties?, body]
  have types : (members.filter fun type => !type.isNullish) = nonNull members := rfl
  have names : fact.memberNames? = (TypeExpr.union members).memberNames? := by
    rw [Fact.memberNames?, body]
  rw [declareType, types]
  cases found : fact.memberNames? with
  | some texts =>
    have isText := found
    rw [names, TypeExpr.memberNames?] at found
    split_ifs at found with empty
    -- A union of texts is an enum without more ado, whatever is pending.
    rw [literalUnion_texts enter fact.name (Bool.eq_false_of_not_eq_true empty) found, pure_bind]
    refine registerEnum_fine orderly there here inv noRecord (builds_of_memberNames isText) ?_
    intro names' same member mem
    rw [isText, Option.some_inj] at same
    subst same
    refine hasMember_of_mem ?_
    simpa using mem
  | none =>
    have other : fact.isImmediate = false := isImmediate_eq_false.mpr ⟨noRecord, found⟩
    have early := earlyNames_eq_names body other (by simp)
    have subset : namesOfAll fact.generics (nonNull members) ⊆ fact.earlyNames := by
      rw [early, TypeExpr.names]
      exact List.Subset.trans (namesOfAll_nonNull fact.generics members)
        (List.subset_append_right _ _)
    have leads₀ : Leads c (place :: pending) s (namesOfAll fact.generics (nonNull members)) :=
      leads.early there here subset
    refine (literalUnion_fine enters inv fact.name leads₀).bind
      fun union s₁ grows₁ inv₁ oneText => ?_
    have builds (isFound : union.isSome = true) : Builds (declared c.facts) nothing fact := by
      refine ⟨_, body, .inr (resolves_union_iff.mpr ?_)⟩
      by_cases single : (nonNull members).length = 1
      · obtain ⟨text, isText⟩ := oneText isFound single
        exact .inr ⟨_, isText, .whole rfl⟩
      · exact .inl single
    cases union with
    | some union =>
      cases union with
      | members members =>
        refine registerEnum_fine orderly there grows₁ inv₁ noRecord (builds rfl)
          fun names' found' => ?_
        rw [found] at found'
        cases found'
      | existing id => exact .pure inv₁ (outcome_some other fun _ => builds rfl)
    | none =>
      refine (resolveBody_fine orderly there enters leads grows₁ inv₁ body rfl early rfl).bind
        fun resolved s₂ grows₂ inv₂ decides => ?_
      cases resolved with
      | none => exact .pure inv₂ fun clear => (decides clear).2 rfl
      | some resolved =>
        exact alias_fine orderly there enters leads (grows₁.trans grows₂) inv₂ early other rfl
          (fun clear => (decides clear).1 rfl) resolved.type

include orderly there enters inv unbuilt leads in
theorem declareType_fine {type : TypeExpr} (body : fact.body = .type type) :
    Fine c (place :: pending) none (declareType c enter place fact type) s
      (Outcome c (place :: pending) fact s) := by
  have here : Grows c none s s := .refl c none s
  have mem : fact ∈ c.facts := List.mem_of_getElem? there
  have enum : fact.memberNames? = type.memberNames? := by rw [Fact.memberNames?, body]
  have whole (isWhole : type.isWhole = true) : Builds (declared c.facts) nothing fact :=
    ⟨type, body, .inr (.whole isWhole)⟩
  have other (noRecord : fact.properties? = none) (noEnum : type.memberNames? = none) :
      fact.isImmediate = false := isImmediate_eq_false.mpr ⟨noRecord, enum.trans noEnum⟩
  cases type with
  | union members => exact declareUnion_fine orderly there enters inv leads body
  | primitive kind =>
    rw [declareType]
    refine (Fine.withGraph inv (primitive_adds _ _)).bind fun _ _ _ inv₁ _ => ?_
    exact .pure inv₁ (outcome_some (other (by rw [properties?, body]) rfl) fun _ => whole rfl)
  | stringLiteral _ | numberLiteral _ | booleanLiteral _ =>
    rw [declareType, resolveUse.eq_def]
    exact declareLiteral_fine inv (other (by rw [properties?, body]) rfl) (whole rfl) _
  | enumeration entries =>
    rw [declareType]
    refine (enumMembers_fine inv fact.name (entryPairs entries)).bind
      fun members s₁ grows₁ inv₁ all => ?_
    refine registerEnum_fine orderly there grows₁ inv₁ (by rw [properties?, body]) (whole rfl) ?_
    intro names found member inside
    rw [enum, TypeExpr.memberNames?, Option.some_inj] at found
    subst found
    refine all member ?_
    simpa [entryPairs] using inside
  | object properties signatures =>
    by_cases dictionary : ∃ signature, properties = [] ∧ signatures = [signature]
    · obtain ⟨signature, rfl, rfl⟩ := dictionary
      rw [declareType]
      refine (declareDictionary_fine orderly there enters inv unbuilt leads body rfl).bind
        fun id s₁ _ inv₁ outcome => ?_
      exact .pure inv₁ outcome
    · have record : ∀ signature, properties = [] → signatures = [signature] → False :=
        fun signature empty single => dictionary ⟨signature, empty, single⟩
      have isRecord := properties_of_body body record
      rw [declareType]
      · refine (declareRecord_fine orderly there enters inv unbuilt leads isRecord rfl).bind
          fun id s₁ _ inv₁ outcome => ?_
        exact .pure inv₁ outcome
      · exact record
  | array element =>
    have plain := other (by rw [properties?, body]) rfl
    have early := earlyNames_eq_names body plain (by simp)
    rw [TypeExpr.names] at early
    rw [declareType]
    refine (@parameters_fine c (place :: pending) enter s _ orderly enters inv fact.typeParameters
      (leads.early there here (early ▸ List.subset_append_left _ _))).bind
      fun _ s₁ grows₁ inv₁ _ => ?_
    refine ((answers orderly enters element).fine inv₁
      (leads.early there grows₁ (early ▸ List.subset_append_right _ _)) "Item").bind
      fun found s₂ _ inv₂ _ => ?_
    refine (orObject_fine inv₂ found).bind fun use s₃ _ inv₃ _ => ?_
    refine (registerNamed_fine orderly inv₃ mem rfl fun _ => rfl).bind fun _ _ _ inv₄ _ => ?_
    exact .pure inv₄ (outcome_some plain fun _ => ⟨_, body, .inl rfl⟩)
  | tuple elements =>
    have plain := other (by rw [properties?, body]) rfl
    have early := earlyNames_eq_names body plain (by simp)
    rw [TypeExpr.names] at early
    rw [declareType]
    refine (@parameters_fine c (place :: pending) enter s _ orderly enters inv fact.typeParameters
      (leads.early there here (early ▸ List.subset_append_left _ _))).bind
      fun _ s₁ grows₁ inv₁ _ => ?_
    refine (resolveItems_fine (fun type _ => answers orderly enters type) inv₁
      (leads.early there grows₁ (early ▸ List.subset_append_right _ _)) 1).bind
      fun uses s₂ _ inv₂ _ => ?_
    refine (registerNamed_fine orderly inv₂ mem rfl fun _ => rfl).bind fun _ _ _ inv₃ _ => ?_
    exact .pure inv₃ (outcome_some plain fun _ => whole rfl)
  | reference _ _ _ | enumLiteral _ _ _ | parameter _ =>
    have plain := other (by rw [properties?, body]) rfl
    rw [declareType]
    exact declareAlias_fine orderly there enters inv leads body rfl plain
      (earlyNames_eq_names body plain (by simp)) rfl

end declare

/-! ### All declarations -/

section run
variable {c : Context} {pending : List Nat} {s : State} {place : Nat} {fact : Fact}

theorem built?_fine (inv : Inv c pending s) (place : Nat) :
    Fine c pending none (built? place) s fun found s' =>
      s = s' ∧ found = (s.built.get? place).map s.graph.resolve :=
  ⟨_, _, rfl, .refl c none s, inv, rfl, rfl⟩

theorem reportCycle_fine (inv : Inv c pending s) (place : Nat) :
    Fine c pending none (reportCycle c place) s fun found _ => found = none := by
  rw [reportCycle]
  cases c.facts[place]? with
  | none => exact .pure inv rfl
  | some fact => exact (report_fine inv _ _ _).bind fun _ _ _ inv₁ _ => .pure inv₁ rfl

theorem reportCycle_entered (inv : Inv c pending s) (there : c.facts[place]? = some fact)
    (mem : place ∈ pending) (unbuilt : s.built.get? place = none) :
    Fine c pending none (reportCycle c place) s (Entered c pending place fact s) := by
  refine (reportCycle_fine inv place).mono ?_
  rintro _ s' - rfl
  exact ⟨nofun, fun _ _ _ => ⟨place, mem, unbuilt, fact, there, rfl⟩⟩

theorem built?_entered (inv : Inv c pending s) {rest : Ingest (Option NodeId)}
    (next : s.built.get? place = none →
      Fine c pending none rest s (Entered c pending place fact s)) :
    Fine c pending none (do
      match ← built? place with
      | some id => return some id
      | none => rest) s (Entered c pending place fact s) := by
  refine (built?_fine inv place).bind ?_
  rintro _ _ - - ⟨rfl, rfl⟩
  cases found : s.built.get? place with
  | some id => exact .pure inv ⟨fun _ => ⟨id, found⟩, nofun⟩
  | none => exact next found

theorem Inv.push (inv : Inv c pending s) (place : Nat) : Inv c (place :: pending) s where
  tidy := inv.tidy
  stands := inv.stands
  complete other fact id there found done :=
    inv.complete other fact id there found fun mem => done (List.mem_cons_of_mem place mem)

theorem properties_of_missing {s' : State} (outcome : Outcome c pending fact s none s') :
    fact.properties? = none := by
  cases isRecord : fact.properties? with
  | none => rfl
  | some properties =>
    obtain ⟨signatures, body, -⟩ := body_of_properties isRecord
    refine absurd ⟨_, body, .inr (.whole rfl)⟩ (outcome fun type isBody _ question asks => ?_)
    rw [body] at isBody
    cases isBody
    cases asks

theorem finish_fine (orderly : Orderly c.facts) (there : c.facts[place]? = some fact)
    (unbuilt : s.built.get? place = none) {m : Ingest (Option NodeId)}
    (fine : Fine c (place :: pending) none m s (Outcome c (place :: pending) fact s)) :
    Fine c pending none (do
      let id ← m
      if let some id := id then markBuilt place id
      return id) s (Entered c pending place fact s) := by
  refine Ensures.bind fine fun found s₁ ⟨grows₁, inv₁, outcome⟩ => ?_
  cases found with
  | some id =>
    obtain ⟨stands, complete, late⟩ := outcome
    refine ⟨some id, _, rfl, grows₁.markBuilt there unbuilt late, ?_, ?_⟩
    · exact inv₁.markBuilt there stands (fun _ => complete) fun _ _ outside => outside
    · exact ⟨fun _ => ⟨id, Table.get?_insert_self _ _ _⟩, nofun⟩
  | none =>
    have noRecord := properties_of_missing outcome
    refine Ensures.pure ⟨grows₁, ⟨inv₁.tidy, inv₁.stands, ?_⟩, nofun, fun _ clear builds => ?_⟩
    · intro other fact' id there' found done
      by_cases same : other = place
      · subst same
        rw [there, Option.some_inj] at there'
        subst there'
        intro properties isRecord
        rw [noRecord] at isRecord
        cases isRecord
      · exact inv₁.complete other fact' id there' found (by simp [same, done])
    · -- The declaration itself is pending no longer, but its resolution never needs it.
      refine absurd ((builds.without_itself orderly.injOn (List.mem_of_getElem? there)).anti ?_)
        (outcome clear)
      rintro name ⟨other, mem, waiting, fact', there', rfl⟩
      rw [List.mem_cons] at mem
      obtain rfl | mem := mem
      · rw [there, Option.some_inj] at there'
        exact .inr (there' ▸ rfl)
      · exact .inl ⟨other, mem, waiting, fact', there', rfl⟩

theorem declaration_enters (orderly : Orderly c.facts) (level : Nat) (nodup : pending.Nodup)
    (inside : ∀ place ∈ pending, place < c.facts.length)
    (enough : level + pending.length = c.facts.length) :
    Enters c pending (declaration c level pending) := by
  induction level generalizing pending with
  | zero =>
    -- Every level above has made one more place pending, so that now all of them are.
    intro place fact s there inv leads
    have lt := (List.getElem?_eq_some_iff.mp there).1
    rw [declaration]
    refine built?_entered inv fun unbuilt => ?_
    exact reportCycle_entered inv there (mem_of_full nodup inside (by omega) lt) unbuilt
  | succ level ih =>
    intro place fact s there inv leads
    have lt := (List.getElem?_eq_some_iff.mp there).1
    rw [declaration]
    refine built?_entered inv fun unbuilt => ?_
    split
    · rename_i mem
      exact reportCycle_entered inv there (List.contains_iff_mem.mp mem) unbuilt
    · rename_i outside
      rw [List.contains_iff_mem] at outside
      rw [there]
      have enters : Enters c (place :: pending) (declaration c level (place :: pending)) := by
        refine ih (List.nodup_cons.mpr ⟨outside, nodup⟩) ?_ ?_
        · simpa using ⟨lt, inside⟩
        · rw [List.length_cons]
          omega
      refine finish_fine orderly there unbuilt ?_
      rw [declareFact]
      cases body : fact.body with
      | constant =>
        have isType := orderly.types fact (List.mem_of_getElem? there)
        rw [Fact.isType, body] at isType
        cases isType
      | type type =>
        exact declareType_fine orderly there enters (inv.push place) unbuilt leads body

theorem Entered.record (isRecord : fact.properties?.isSome = true) {found : Option NodeId}
    {s' : State} (entered : Entered c [] place fact s found s') :
    ∃ id, s'.built.get? place = some id := by
  obtain ⟨properties, isRecord⟩ := Option.isSome_iff_exists.mp isRecord
  obtain ⟨signatures, body, -⟩ := body_of_properties isRecord
  cases found with
  | some id => exact entered.1 rfl
  | none =>
    have clear : ClearFact (declared c.facts) s'.graph fact := by
      intro type isBody _ question asks
      rw [body] at isBody
      cases isBody
      cases asks
    obtain ⟨_, mem, -⟩ := entered.2 rfl clear ⟨_, body, .inr (.whole rfl)⟩
    cases mem

theorem buildFacts_fine (orderly : Orderly c.facts) (inv : Inv c [] s) :
    Fine c [] none (buildFacts c) s fun _ s' =>
      ∀ place fact, c.facts[place]? = some fact → fact.properties?.isSome = true →
        ∃ id, s'.built.get? place = some id := by
  have enters : Enters c [] (declaration c c.facts.length []) :=
    declaration_enters orderly c.facts.length List.nodup_nil nofun rfl
  have known : ∀ place ∈ List.range c.facts.length,
      ∃ fact, c.facts[place]? = some fact ∧ Leads c [] s [fact.name] := fun place mem =>
    ⟨_, List.getElem?_eq_getElem (List.mem_range.mp mem), nofun⟩
  rw [buildFacts]
  refine (enterAll_fine enters inv known fun place fact s₁ found s₂ _ isRecord _ entered =>
    entered.record isRecord).bind fun _ s₁ _ inv₁ built => .pure inv₁ fun place fact there => ?_
  exact built place (List.mem_range.mpr (List.getElem?_eq_some_iff.mp there).1) fact there

end run

end TypeLoom.Ingest
