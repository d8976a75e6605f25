import TypeLoom.Proofs.Ingestion

/-! The resolution of a type decides the question that the declarations pose: what is found
resolves, and what is not found does not resolve without the declarations that are pending. -/
namespace TypeLoom.Ingest
open TypeLoom.Graph TypeLoom.Fact

/-- Declarations that are being built and have no node yet. -/
def Blocked (c : Context) (pending : List Nat) (s : State) (name : String) : Prop :=
  ∃ place ∈ pending, s.built.get? place = none ∧ ∃ fact, c.facts[place]? = some fact ∧
    fact.name = name

/-- Every declaration without a node that is being built leads to these names. -/
def Leads (c : Context) (pending : List Nat) (s : State) (names : List String) : Prop :=
  ∀ place ∈ pending, s.built.get? place = none → ∀ fact, c.facts[place]? = some fact →
    ∀ name ∈ names, EarlyLeads (declared c.facts) fact.name name

/-- What is found agrees with the declarations. -/
def Decides (D : Set Fact) (blocked : String → Prop) (generics : List String) (type : TypeExpr)
    (found : Bool) : Prop :=
  (found = true → Resolves D nothing generics type) ∧
  (found = false → ¬ Resolves D blocked generics type)

section
variable {c : Context} {pending : List Nat} {own : Option NodeId} {s s' : State}

theorem Grows.unbuilt (grows : Grows c own s s') {place : Nat}
    (unbuilt : s'.built.get? place = none) : s.built.get? place = none := by
  rw [Option.eq_none_iff_forall_ne_some]
  intro id found
  rw [grows.built place id found] at unbuilt
  cases unbuilt

theorem Leads.later {names : List String} (leads : Leads c pending s names)
    (grows : Grows c own s s') : Leads c pending s' names :=
  fun place mem unbuilt => leads place mem (grows.unbuilt unbuilt)

theorem Leads.mono {names fewer : List String} (leads : Leads c pending s names)
    (subset : fewer ⊆ names) : Leads c pending s fewer :=
  fun place mem unbuilt fact there name called =>
    leads place mem unbuilt fact there name (subset called)

theorem Blocked.earlier (grows : Grows c own s s') (name : String)
    (blocked : Blocked c pending s' name) : Blocked c pending s name := by
  obtain ⟨place, mem, unbuilt, found⟩ := blocked
  exact ⟨place, mem, grows.unbuilt unbuilt, found⟩

theorem Decides.earlier {generics : List String} {type : TypeExpr} {found : Bool}
    (grows : Grows c own s s')
    (decides : Decides (declared c.facts) (Blocked c pending s') generics type found) :
    Decides (declared c.facts) (Blocked c pending s) generics type found :=
  ⟨decides.1, fun missing resolves => decides.2 missing (resolves.anti (Blocked.earlier grows))⟩

theorem decides_whole {D : Set Fact} {blocked : String → Prop} {generics : List String}
    {type : TypeExpr} (whole : type.isWhole = true) : Decides D blocked generics type true :=
  ⟨fun _ => .whole whole, nofun⟩

end

section places
variable {c : Context}

theorem mem_placesNamed {name : String} {place : Nat} (mem : place ∈ c.placesNamed name) :
    ∃ fact, c.facts[place]? = some fact ∧ fact.name = name := by
  obtain ⟨⟨_, fact⟩, inside, rfl⟩ := List.mem_map.mp mem
  obtain ⟨isType, named⟩ := List.mem_filter.mp inside
  obtain ⟨⟨_, _⟩, zipped, ⟨⟩⟩ := List.mem_map.mp (List.mem_filter.mp isType).1
  exact ⟨fact, List.mem_zipIdx_iff_getElem?.mp zipped, by simpa using named⟩

theorem mem_placesNamed_of_isType {fact : Fact} {place : Nat} (there : c.facts[place]? = some fact)
    (isType : fact.isType = true) : place ∈ c.placesNamed fact.name := by
  refine List.mem_map.mpr ⟨(place, fact), ?_, rfl⟩
  refine List.mem_filter.mpr ⟨List.mem_filter.mpr ⟨List.mem_map.mpr ⟨(fact, place), ?_, rfl⟩,
    isType⟩, by simp⟩
  exact List.mem_zipIdx_iff_getElem?.mpr there

theorem Orderly.mem_placesNamed (orderly : Orderly c.facts) {fact : Fact} {place : Nat}
    (there : c.facts[place]? = some fact) : place ∈ c.placesNamed fact.name :=
  mem_placesNamed_of_isType there (orderly.types fact (List.mem_of_getElem? there))

theorem Orderly.placeOfOrigin? (orderly : Orderly c.facts) (origin : String) :
    c.placeOfOrigin? origin = none := by
  rw [Context.placeOfOrigin?, List.getLast?_eq_none_iff, List.map_eq_nil_iff,
    List.filter_eq_nil_iff]
  rintro ⟨place, fact⟩ mem
  obtain ⟨⟨_, _⟩, zipped, ⟨⟩⟩ := List.mem_map.mp (List.mem_filter.mp mem).1
  have inside := List.mem_of_getElem? (List.mem_zipIdx_iff_getElem?.mp zipped)
  simp [orderly.origins fact inside]

theorem Orderly.injOn {facts : List Fact} (orderly : Orderly facts) :
    Set.InjOn Fact.name (declared facts) :=
  fun _ left _ right same => List.inj_on_of_nodup_map orderly.distinct left right same

end places

theorem numberMember_name (expected : Int) (name : String) (value : Option EnumValue) :
    (numberMember expected name value).member.name = name := by
  rw [numberMember.eq_def]
  repeat' split
  all_goals rfl

theorem mem_numberMembers {seen : List String} {expected : Int}
    {members : List (String × Option EnumValue)}
    {name : String} (mem : name ∈ members.map Prod.fst) (new : name ∉ seen) :
    name ∈ (numberMembers seen expected members).map fun numbered => numbered.member.name := by
  induction members generalizing seen expected with
  | nil => cases mem
  | cons entry rest ih =>
    obtain ⟨first, value⟩ := entry
    rw [numberMembers]
    rw [List.map_cons, List.mem_cons] at mem
    split
    · rename_i again
      rw [List.contains_iff_mem] at again
      refine ih (mem.resolve_left fun same => ?_) new
      exact new (same ▸ again)
    · rw [List.map_cons, List.mem_cons, numberMember_name]
      by_cases same : name = first
      · exact .inl same
      · exact .inr (ih (mem.resolve_left same) (by simp [same, new]))

theorem hasMember_of_mem {members : List Member} {name : String}
    (mem : name ∈ members.map Member.name) : hasMember name (.stringUnion members) = true := by
  obtain ⟨member, inside, rfl⟩ := List.mem_map.mp mem
  rw [hasMember, List.any_eq_true]
  exact ⟨member, inside, by simp⟩

section enums
variable {c : Context} {pending : List Nat} {own : Option NodeId} {s : State}

theorem enumMembers_fine (inv : Inv c pending s) (subject : String)
    (entries : List (String × Option EnumValue)) :
    Fine c pending own (enumMembers subject entries) s fun members _ =>
      ∀ name ∈ entries.map Prod.fst, hasMember name (.stringUnion members) = true := by
  rw [enumMembers]
  refine (Fine.forIn (fun _ _ => True) inv trivial fun entry _ s' _ inv' _ => ?_).bind
    fun _ _ _ inv' _ => .pure inv' fun name mem => hasMember_of_mem ?_
  · split
    · exact (report_fine inv' _ _ _).bind fun _ _ _ inv'' _ => .pure inv'' ⟨rfl, trivial⟩
    · exact .pure inv' ⟨rfl, trivial⟩
  · rw [List.map_map]
    exact mem_numberMembers mem List.not_mem_nil

theorem mem_names_of_enumLiterals {types : List TypeExpr} {literals : List EnumLiteral}
    (found : enumLiterals? types = some literals) (generics : List String) {literal : EnumLiteral}
    (mem : literal ∈ literals) (named : literal.enumName.isEmpty = false) :
    literal.enumName ∈ namesOfAll generics types := by
  induction types generalizing literals with
  | nil =>
    cases found
    cases mem
  | cons type rest ih =>
    rw [enumLiterals?, List.mapM_cons] at found
    obtain ⟨first, isFirst, found⟩ := Option.bind_eq_some_iff.mp found
    obtain ⟨others, areOthers, found⟩ := Option.bind_eq_some_iff.mp found
    cases found
    rw [namesOfAll, List.mem_append]
    rw [List.mem_cons] at mem
    obtain rfl | mem := mem
    · left
      cases type with
      | enumLiteral enumName member value =>
        cases isFirst
        cases enumName with
        | none => cases named
        | some name => exact List.mem_singleton_self name
      | _ => cases isFirst
    · exact .inr (ih areOthers mem)

theorem literalUnion_texts (enter : Nat → Ingest (Option NodeId)) (subject : String)
    {types : List TypeExpr} {texts : List String}
    (filled : types.isEmpty = false) (found : literalTexts? types = some texts) :
    literalUnion c enter subject types =
      pure (some (.members (texts.eraseDups.map fun text => ⟨text, none, some text⟩))) := by
  rw [literalUnion, filled, found]
  rfl

theorem not_blocked_of_memberNames (orderly : Orderly c.facts) {fact : Fact} (mem : fact ∈ c.facts)
    {names : List String} (found : fact.memberNames? = some names) {name : String}
    (leads : Leads c pending s [name]) : ¬ Blocked c pending s fact.name := by
  rintro ⟨place, inside, unbuilt, other, there, named⟩
  have same := orderly.injOn (List.mem_of_getElem? there) mem named
  subst same
  exact not_earlyLeads_of_memberNames orderly.injOn mem found name
    (leads place inside unbuilt _ there name (List.mem_singleton_self name))

end enums

/-- The declaration has been built, or it could not be without the pending ones. -/
def Entered (c : Context) (pending : List Nat) (place : Nat) (fact : Fact) (s : State)
    (found : Option NodeId) (s' : State) : Prop :=
  (found.isSome = true → ∃ id, s'.built.get? place = some id) ∧
  (found = none → ClearFact (declared c.facts) s'.graph fact →
    Builds (declared c.facts) (Blocked c pending s) fact → Blocked c pending s fact.name)

def Enters (c : Context) (pending : List Nat) (enter : Nat → Ingest (Option NodeId)) : Prop :=
  ∀ place fact s, c.facts[place]? = some fact → Inv c pending s → Leads c pending s [fact.name] →
    Fine c pending none (enter place) s (Entered c pending place fact s)

theorem Entered.enum {c : Context} {pending : List Nat} {place : Nat} {fact : Fact} {s s' : State}
    {found : Option NodeId} (orderly : Orderly c.facts) (there : c.facts[place]? = some fact)
    (isEnum : fact.memberNames?.isSome = true) (leads : Leads c pending s [fact.name])
    (entered : Entered c pending place fact s found s') : ∃ id, s'.built.get? place = some id := by
  obtain ⟨names, named⟩ := Option.isSome_iff_exists.mp isEnum
  cases found with
  | some id => exact entered.1 rfl
  | none =>
    have clear : ClearFact (declared c.facts) s'.graph fact := fun type body _ _ asks =>
      absurd asks (not_asks_of_memberNames named body)
    have blocked := entered.2 rfl clear (builds_of_memberNames named)
    exact absurd blocked
      (not_blocked_of_memberNames orderly (List.mem_of_getElem? there) named leads)

section enter
variable {c : Context} {pending : List Nat} {enter : Nat → Ingest (Option NodeId)} {s : State}
  (enters : Enters c pending enter)
include enters

theorem buildAll_fine (inv : Inv c pending s) {name : String} {places : List Nat}
    (named : places ⊆ c.placesNamed name) (leads : Leads c pending s [name]) :
    Fine c pending none (buildAll enter places) s fun _ _ => True := by
  induction places generalizing s with
  | nil => exact .pure inv trivial
  | cons place rest ih =>
    obtain ⟨fact, there, isNamed⟩ := mem_placesNamed (named List.mem_cons_self)
    have entered : Fine c pending none (discard (enter place)) s fun _ _ => True :=
      .discard ((enters place fact s there inv (isNamed ▸ leads)).mono fun _ _ _ _ => trivial)
    have tried : Fine c pending none (tryCatch (do discard (enter place); return true)
        fun _ => return false) s fun fine _ => fine = true :=
      Ensures.tryCatch (entered.bind fun _ _ _ inv' _ => .pure inv' rfl)
    rw [buildAll]
    refine tried.bind ?_
    rintro _ s' grows inv' rfl
    exact ih inv' (fun _ mem => named (List.mem_cons_of_mem place mem)) (leads.later grows)

theorem existingEnum_fine (inv : Inv c pending s) {literals : List EnumLiteral}
    (leads : ∀ literal ∈ literals, literal.enumName.isEmpty = false →
      Leads c pending s [literal.enumName]) :
    Fine c pending none (existingEnum c enter literals) s fun _ _ => True := by
  cases literals with
  | nil => exact .pure inv trivial
  | cons first rest =>
    rw [existingEnum]
    split
    · exact .pure inv trivial
    · rename_i named
      rw [Bool.or_eq_true, not_or, Bool.not_eq_true] at named
      refine (buildAll_fine enters inv (List.Subset.refl _)
        (leads first List.mem_cons_self named.1)).bind fun fine s₁ _ inv₁ _ => ?_
      split
      · exact .pure inv₁ trivial
      · refine (Fine.withGraph inv₁ (findUnion_adds _ _ _)).bind fun found s₂ _ inv₂ _ => ?_
        cases found with
        | none => exact .pure inv₂ trivial
        | some id => exact (Fine.getGraph inv₂).bind fun _ _ _ inv₃ _ => .pure inv₃ trivial

theorem literalUnion_fine (inv : Inv c pending s) (subject : String) {generics : List String}
    {types : List TypeExpr} (leads : Leads c pending s (namesOfAll generics types)) :
    Fine c pending none (literalUnion c enter subject types) s fun found _ =>
      found.isSome = true → types.length = 1 → ∃ text, types = [.stringLiteral text] := by
  rw [literalUnion]
  split
  · exact .pure inv nofun
  cases texts : literalTexts? types with
  | some texts =>
    refine .pure inv fun _ single => ?_
    obtain ⟨type, rfl⟩ := List.length_eq_one_iff.mp single
    cases type with
    | stringLiteral text => exact ⟨text, rfl⟩
    | _ => simp [literalTexts?] at texts
  | none =>
    dsimp only
    split
    · exact .pure inv nofun
    · rename_i several
      cases found : enumLiterals? types with
      | none => exact .pure inv nofun
      | some literals =>
        dsimp only
        refine (existingEnum_fine enters inv fun literal mem named => leads.mono ?_).bind
          fun existing s₁ _ inv₁ _ => ?_
        · simpa using mem_names_of_enumLiterals found generics mem named
        · cases existing with
          | some id => exact .pure inv₁ fun _ single => absurd single several
          | none =>
            exact (enumMembers_fine inv₁ _ _).bind fun _ _ _ inv₂ _ =>
              .pure inv₂ fun _ single => absurd single several

theorem enterAll_fine (inv : Inv c pending s) {places : List Nat} {kind : Fact → Prop}
    (known : ∀ place ∈ places, ∃ fact, c.facts[place]? = some fact ∧ Leads c pending s [fact.name])
    (sure : ∀ place fact s₁ found s₂, c.facts[place]? = some fact → kind fact →
      Leads c pending s₁ [fact.name] → Entered c pending place fact s₁ found s₂ →
      ∃ id, s₂.built.get? place = some id) :
    Fine c pending none (forIn places PUnit.unit fun place _ => do
      discard (enter place)
      return .yield PUnit.unit) s fun _ s' => ∀ place ∈ places, ∀ fact,
        c.facts[place]? = some fact → kind fact → ∃ id, s'.built.get? place = some id := by
  let keep (rest : List Nat) (s' : State) : Prop := rest ⊆ places ∧ ∀ place ∈ places, place ∉ rest →
    ∀ fact, c.facts[place]? = some fact → kind fact → ∃ id, s'.built.get? place = some id
  have start : keep places s :=
    ⟨List.Subset.refl _, fun place mem outside => absurd mem outside⟩
  refine (Fine.forIn keep inv start fun place rest s₁ grows₁ inv₁ ⟨inside, done⟩ => ?_).mono
    fun _ _ _ ⟨_, done⟩ place mem => done place mem List.not_mem_nil
  obtain ⟨fact, there, leads⟩ := known place (inside List.mem_cons_self)
  have leads₁ := leads.later grows₁
  refine (Fine.discard ((enters place fact s₁ there inv₁ leads₁).mono
    fun found s₂ grows₂ entered => ?_)).bind fun _ _ _ inv₂ keeps => .pure inv₂ ⟨rfl, keeps⟩
  refine ⟨fun _ mem => inside (List.mem_cons_of_mem place mem),
    fun other mem outside taken at' isKind => ?_⟩
  by_cases same : other = place
  · subst same
    rw [there, Option.some_inj] at at'
    exact sure other fact s₁ found s₂ there (at' ▸ isKind) leads₁ entered
  · obtain ⟨id, built⟩ := done other mem (by simp [same, outside]) taken at' isKind
    exact ⟨id, grows₂.built other id built⟩

theorem enterEnums_fine (orderly : Orderly c.facts) (inv : Inv c pending s) {name : String}
    (leads : Leads c pending s [name]) : Fine c pending none (forIn (c.placesNamed name) PUnit.unit
      fun place _ => do discard (enter place); return .yield PUnit.unit) s fun _ s' =>
        ∀ place fact, c.facts[place]? = some fact → fact.name = name →
          fact.memberNames?.isSome = true → ∃ id, s'.built.get? place = some id := by
  have known : ∀ place ∈ c.placesNamed name,
      ∃ fact, c.facts[place]? = some fact ∧ Leads c pending s [fact.name] := by
    intro place mem
    obtain ⟨fact, there, rfl⟩ := mem_placesNamed mem
    exact ⟨fact, there, leads⟩
  refine (enterAll_fine enters inv known fun place fact s₁ found s₂ there isEnum leads₁ entered =>
    entered.enum orderly there isEnum leads₁).mono ?_
  rintro _ s' - built place fact there rfl
  exact built place (orderly.mem_placesNamed there) fact there

theorem enumOfLiteral_fine (orderly : Orderly c.facts) (inv : Inv c pending s)
    {enumName : Option String} (leads : Leads c pending s enumName.toList) (member : String) :
    Fine c pending none (enumOfLiteral c enter enumName member) s fun found s' =>
      Settled (declared c.facts) s'.graph (.literal enumName member) →
        (found.isSome = true ↔ HasMember (declared c.facts) enumName member) := by
  have entered : Fine c pending none (forIn ((enumName.map c.placesNamed).getD []) PUnit.unit
      fun place _ => do discard (enter place); return .yield PUnit.unit) s fun _ s' =>
        ∀ place fact, c.facts[place]? = some fact → enumName = some fact.name →
          fact.memberNames?.isSome = true → ∃ id, s'.built.get? place = some id := by
    cases enumName with
    | none => exact .pure inv nofun
    | some name =>
      refine (enterEnums_fine enters orderly inv leads).mono
        fun _ s' _ built place fact there named => ?_
      exact built place fact there (Option.some_inj.mp named).symm
  rw [enumOfLiteral]
  refine entered.bind fun _ s₁ _ inv₁ built => ?_
  refine (Fine.withGraph inv₁ (findUnion_adds _ _ _)).mono ?_
  rintro _ _ - ⟨rfl, rfl⟩ settled
  have settled₁ := settled.earlier (persists_of_adds (findUnion_adds s₁.graph member enumName))
  by_cases has : HasMember (declared c.facts) enumName member
  · have sure := has
    obtain ⟨fact, mem, rfl, type, names, body, found, inside⟩ := has
    obtain ⟨place, there⟩ := List.mem_iff_getElem?.mp mem
    have named : fact.memberNames? = some names := by rw [Fact.memberNames?, body]; exact found
    obtain ⟨id, isBuilt⟩ := built place fact there rfl (Option.isSome_of_eq_some named)
    obtain ⟨node, here, called, members⟩ :=
      (inv₁.stands place fact id there isBuilt).members names named
    have hasIt := members member inside
    have hinted : (some fact.name).any node.isCalled = true := called
    have solid : ∀ arity, node.shape ≠ .classUnion arity := by
      intro arity union
      rw [union] at hasIt
      cases hasIt
    -- The declared enum is found, since the graph has no other of that name with the member.
    have found := findUnion_eq_some (inv₁.tidy.isLive here solid) here hasIt hinted
      fun other taken at' hasIt' hinted' =>
        settled₁.1 sure other id taken node at' here hasIt' hinted' hasIt hinted
    rw [found]
    simp [sure]
  · rw [findUnion_eq_none (settled₁.2 has)]
    simp [has]

end enter

end TypeLoom.Ingest
