import TypeLoom.Proofs.Decision

/-! Every type is resolved, or found not to resolve, as the declarations have it. The steps below a
type follow its parts, so the proof is an induction on its size; declarations are entered on the
way, and what is assumed of that is `Enters`. -/
namespace TypeLoom.Ingest
open TypeLoom.Graph TypeLoom.Fact

theorem mem_namesOfAll {generics : List String} {types : List TypeExpr} {name : String} :
    name ∈ namesOfAll generics types ↔ ∃ type ∈ types, name ∈ type.names generics := by
  induction types with
  | nil => simp [namesOfAll]
  | cons type rest ih => simp [namesOfAll, ih]

theorem PropertyFact.names_eq (property : PropertyFact) (generics : List String) :
    property.names generics = property.type.names generics := by
  cases property
  rfl

/-! ### Records under construction -/

def RecordAt (g : Graph) (id : NodeId) (own : List Property) : Prop :=
  ∃ node generics, g.nodes[id]? = some node ∧ node.shape = .record own generics

theorem ne_classUnion_of_record {shape : Shape} {own : List Property} {generics : List Parameter}
    (isRecord : shape = .record own generics) (arity : Nat) : shape ≠ .classUnion arity := by
  rw [isRecord]
  exact nofun

section records
variable {c : Context} {pending : List Nat} {s s' : State} {id : NodeId} {own : List Property}

theorem RecordAt.inside {g : Graph} (record : RecordAt g id own) : id < g.nodes.size := by
  obtain ⟨node, generics, there, -⟩ := record
  exact (Array.getElem?_eq_some_iff.mp there).1

theorem RecordAt.later (record : RecordAt s.graph id own) (grows : Grows c none s s') :
    RecordAt s'.graph id own := by
  have inside := record.inside
  obtain ⟨node, generics, there, shape⟩ := record
  exact ⟨node, generics, (grows.nodes id inside nofun).trans there, shape⟩

theorem initializerValue_fine (inv : Inv c pending s) (subject text : String)
    (comment : Option String) :
    Fine c pending none (initializerValue subject text comment) s fun _ _ => True := by
  rw [initializerValue]
  cases Literal.evaluate text with
  | ok value => exact .pure inv trivial
  | error e =>
    refine (report_fine inv _ _ _).bind fun _ _ _ inv₁ _ => ?_
    cases comment <;> exact .pure inv₁ trivial

section change
variable (inv : Inv c pending s) (owned : Owned c pending s id) (record : RecordAt s.graph id own)
include inv owned record

theorem addParameter_fine (parameter : Parameter) :
    Fine c pending (some id) (modifyGraph (·.addParameter id parameter)) s fun _ s' =>
      RecordAt s'.graph id own := by
  obtain ⟨node, generics, there, shape⟩ := record
  have solid := ne_classUnion_of_record shape
  refine (modifyShape_fine inv owned there solid (steady_addParameter parameter)).mono
    fun _ s' _ after => ?_
  by_cases known : generics.any (fun g => g.name = parameter.name) = true
  · refine ⟨_, generics, after, ?_⟩
    simp only [shape, Shape.addParameter, Shape.generics, known, if_true]
  · refine ⟨_, generics ++ [parameter], after, ?_⟩
    simp only [shape, Shape.addParameter, Shape.generics, known, Bool.false_eq_true, if_false,
      Shape.withGenerics]

theorem addParameters_fine {α : Type} (xs : List α) (parameter : α → Parameter) :
    Fine c pending (some id) (forIn xs PUnit.unit fun x _ => do
      modifyGraph (·.addParameter id (parameter x))
      return .yield PUnit.unit) s fun _ s' => RecordAt s'.graph id own := by
  refine Fine.forIn (fun _ s' => RecordAt s'.graph id own) inv record
    fun x _ s' grows inv' record' => ?_
  have owned' := owned.later record.inside grows
  exact (addParameter_fine inv' owned' record' (parameter x)).bind
    fun _ _ _ inv'' record'' => .pure inv'' ⟨rfl, record''⟩

theorem graphAddProperty_fine (property : Property) :
    Fine c pending (some id) (modifyGraph (·.addProperty id property)) s fun _ s' =>
      ∃ own', RecordAt s'.graph id own' ∧ ∀ name, name ∈ own'.map Property.name ↔
        name ∈ own.map Property.name ∨ name = property.name := by
  obtain ⟨node, generics, there, shape⟩ := record
  have solid := ne_classUnion_of_record shape
  refine (modifyShape_fine inv owned there solid (steady_addProperty property)).mono
    fun _ s' _ after => ?_
  by_cases known : own.any (fun p => p.name = property.name) = true
  · refine ⟨own, ⟨_, generics, after, ?_⟩, fun name => ?_⟩
    · simp only [shape, Shape.addProperty, known, if_true]
    · obtain ⟨other, mem, same⟩ := List.any_eq_true.mp known
      refine ⟨.inl, fun either => either.elim (fun mem => mem) fun named => ?_⟩
      rw [named, ← of_decide_eq_true same]
      exact List.mem_map_of_mem mem
  · refine ⟨own ++ [property], ⟨_, generics, after, ?_⟩, fun name => ?_⟩
    · simp only [shape, Shape.addProperty, known, Bool.false_eq_true, if_false]
    · simp

theorem addProperty_fine (subject : String) (property : PropertyFact) (resolved : Resolved) :
    Fine c pending (some id) (addProperty id subject property resolved) s fun _ s' =>
      ∃ own', RecordAt s'.graph id own' ∧ ∀ name, name ∈ own'.map Property.name ↔
        name ∈ own.map Property.name ∨ name = property.name := by
  rw [addProperty]
  cases property.initializer with
  | none => exact graphAddProperty_fine inv owned record _
  | some text =>
    refine (initializerValue_fine inv subject text property.comment).before
      fun _ s₁ grows inv₁ _ => ?_
    exact graphAddProperty_fine inv₁ (owned.later record.inside grows) (record.later grows) _

theorem closeRecord_fine (generics : List String) :
    Fine c pending (some id) (closeRecord id generics) s fun _ _ => True := by
  rw [closeRecord]
  refine (Fine.getGraph inv).bind ?_
  rintro _ _ - - ⟨rfl, rfl⟩
  refine (addParameters_fine inv owned record _ fun name => ⟨name, none⟩).bind
    fun _ _ _ inv' _ => ?_
  exact .pure inv' trivial

end change

theorem inlineRecord_fine (inv : Inv c pending s) (stem : String) {suffix : String}
    (visible : Text.isBlankText suffix.toList = false)
    (scope : Scope) {add : NodeId → Scope → Ingest Unit}
    (fine : ∀ id s', Grows c none s s' → Inv c pending s' → Owned c pending s' id →
      RecordAt s'.graph id [] → Fine c pending (some id) (add id (scope.nested (stem ++ suffix))) s'
        fun _ s'' => ∃ own, RecordAt s''.graph id own) :
    Fine c pending none (inlineRecord (stem ++ suffix) scope add) s fun _ _ => True := by
  rw [inlineRecord, openRecord]
  refine Fine.make inv
    (registerAnonymous_fine inv stem visible rfl (fun _ => rfl) (scope.level + 1)) ?_
  intro id s₁ grows₁ inv₁ owned₁ ⟨placed, there, shape⟩
  have record₁ : RecordAt s₁.graph id [] := ⟨placed, [], there, shape⟩
  refine (fine id s₁ grows₁ inv₁ owned₁ record₁).bind fun _ s₂ grows₂ inv₂ ⟨own, record₂⟩ => ?_
  exact closeRecord_fine inv₂ (owned₁.later record₁.inside grows₂) record₂ scope.generics

end records

/-! ### Parts of types -/

theorem Scope.nested_generics (scope : Scope) (name : String) :
    (scope.nested name).generics = scope.generics := rfl

def Answers (c : Context) (pending : List Nat) (enter : Nat → Ingest (Option NodeId))
    (type : TypeExpr) : Prop :=
  ∀ scope member s, Inv c pending s → Leads c pending s (type.names scope.generics) →
    Fine c pending none (resolveUse c enter type scope member) s fun found s' =>
      Clear (declared c.facts) s'.graph scope.generics type →
        Decides (declared c.facts) (Blocked c pending s) scope.generics type found.isSome

section parts
variable {c : Context} {pending : List Nat} {enter : Nat → Ingest (Option NodeId)} {s : State}
  {scope : Scope}

theorem Answers.fine {type : TypeExpr} (answers : Answers c pending enter type)
    (inv : Inv c pending s)
    (leads : Leads c pending s (type.names scope.generics)) (member : String) :
    Fine c pending none (resolveUse c enter type scope member) s fun _ _ => True :=
  (answers scope member s inv leads).mono fun _ _ _ _ => trivial

theorem Leads.head {type : TypeExpr} {rest : List TypeExpr} {generics : List String}
    (leads : Leads c pending s (namesOfAll generics (type :: rest))) :
    Leads c pending s (type.names generics) := by
  rw [namesOfAll] at leads
  exact leads.mono (List.subset_append_left _ _)

theorem Leads.tail {type : TypeExpr} {rest : List TypeExpr} {generics : List String}
    (leads : Leads c pending s (namesOfAll generics (type :: rest))) :
    Leads c pending s (namesOfAll generics rest) := by
  rw [namesOfAll] at leads
  exact leads.mono (List.subset_append_right _ _)

theorem dictionaryUse_fine (inv : Inv c pending s) (stem : String) (key : IndexKey)
    (value : TypeUse)
    (level : Nat) : Fine c pending none (dictionaryUse stem key value level) s fun _ _ => True := by
  rw [dictionaryUse]
  exact (registerAnonymous_fine inv stem (by decide) rfl (fun _ => rfl) level).bind
    fun _ _ _ inv' _ => .pure inv' trivial

theorem resolveFirst_fine {type : TypeExpr} {rest : List TypeExpr}
    (answers : Answers c pending enter type) (inv : Inv c pending s)
    (leads : Leads c pending s (namesOfAll scope.generics (type :: rest))) (member : String)
    {others : Ingest (List TypeUse)} (next : ∀ s₁, Inv c pending s₁ →
      Leads c pending s₁ (namesOfAll scope.generics rest) →
        Fine c pending none others s₁ fun _ _ => True) :
    Fine c pending none (do
      let first ← orObject (← resolveUse c enter type scope member)
      return first :: (← others)) s fun _ _ => True := by
  refine (answers.fine inv leads.head member).bind fun found s₁ grows₁ inv₁ _ => ?_
  refine (orObject_fine inv₁ found).bind fun _ s₂ grows₂ inv₂ _ => ?_
  refine (next s₂ inv₂ (leads.tail.later (grows₁.trans grows₂))).bind fun _ _ _ inv₃ _ => ?_
  exact .pure inv₃ trivial

section lists
variable {types : List TypeExpr} (answers : ∀ type ∈ types, Answers c pending enter type)
  (inv : Inv c pending s) (leads : Leads c pending s (namesOfAll scope.generics types))
include answers inv leads

theorem resolveItems_fine (number : Nat) :
    Fine c pending none (resolveItems c enter types scope number) s fun _ _ => True := by
  induction types generalizing s number with
  | nil => exact .pure inv trivial
  | cons type rest ih =>
    have others := fun other mem => answers other (List.mem_cons_of_mem type mem)
    rw [resolveItems]
    exact resolveFirst_fine (answers type List.mem_cons_self) inv leads _
      fun s₁ inv₁ leads₁ => ih others inv₁ leads₁ _

theorem resolveArguments_fine (member : String) :
    Fine c pending none (resolveArguments c enter types scope member) s fun _ _ => True := by
  induction types generalizing s with
  | nil => exact .pure inv trivial
  | cons type rest ih =>
    have others := fun other mem => answers other (List.mem_cons_of_mem type mem)
    rw [resolveArguments]
    exact resolveFirst_fine (answers type List.mem_cons_self) inv leads _
      fun s₁ inv₁ leads₁ => ih others inv₁ leads₁

theorem resolveRecords_fine (member : String) (number : Nat) :
    Fine c pending none (resolveRecords c enter types scope member number) s fun _ _ => True := by
  induction types generalizing s number with
  | nil => exact .pure inv trivial
  | cons type rest ih =>
    have others := fun other mem => answers other (List.mem_cons_of_mem type mem)
    rw [resolveRecords]
    split
    · exact ih others inv leads.tail number
    · refine ((answers type List.mem_cons_self).fine inv leads.head _).bind
        fun found s₁ grows₁ inv₁ _ => ?_
      cases found with
      | none => exact .pure inv₁ trivial
      | some resolved =>
        refine (Fine.getGraph inv₁).bind ?_
        rintro _ _ - - ⟨rfl, rfl⟩
        split
        · exact (ih others inv₁ (leads.tail.later grows₁) _).bind
            fun _ _ _ inv₂ _ => .pure inv₂ trivial
        · exact .pure inv₁ trivial

theorem resolveOnly_fine (member : String) :
    Fine c pending none (resolveOnly c enter types scope member) s fun found s' =>
      ∀ type, nonNull types = [type] → Clear (declared c.facts) s'.graph scope.generics type →
        Decides (declared c.facts) (Blocked c pending s) scope.generics type found.isSome := by
  induction types with
  | nil => exact .pure inv nofun
  | cons type rest ih =>
    rw [resolveOnly]
    split
    · rename_i null
      have same : nonNull (type :: rest) = nonNull rest := by simp [nonNull, null]
      rw [same]
      exact ih (fun other mem => answers other (List.mem_cons_of_mem type mem)) leads.tail
    · rename_i null
      have same : nonNull (type :: rest) = type :: nonNull rest := by simp [nonNull, null]
      rw [same]
      refine (answers type List.mem_cons_self scope member s inv leads.head).mono ?_
      intro found s' _ decides only single
      obtain ⟨rfl, -⟩ := List.cons.inj single
      exact decides

theorem resolveArrayOf_fine (member : String) :
    Fine c pending none (resolveArrayOf c enter types scope member) s fun found s' =>
      (found.isSome = true → ∃ element, types = [element]) ∧
      ∀ element, types = [element] → Clear (declared c.facts) s'.graph scope.generics element →
        Decides (declared c.facts) (Blocked c pending s) scope.generics element found.isSome := by
  match types with
  | [] => exact .pure inv ⟨nofun, nofun⟩
  | _ :: _ :: _ => exact .pure inv ⟨nofun, nofun⟩
  | [element] =>
    rw [resolveArrayOf]
    refine (answers element List.mem_cons_self scope member s inv leads.head).bind
      fun found s₁ _ inv₁ decides => ?_
    refine .pure inv₁ ⟨fun _ => ⟨element, rfl⟩, ?_⟩
    rintro _ ⟨⟩ clear
    rw [Option.isSome_map]
    exact decides clear

theorem resolveRecordOf_fine (member : String) :
    Fine c pending none (resolveRecordOf c enter types scope member) s fun found _ =>
      (found.isSome = true ↔ ∃ key value, types = [key, value]) := by
  match types with
  | [] => exact .pure inv (by simp)
  | [_] => exact .pure inv (by simp)
  | _ :: _ :: _ :: _ => exact .pure inv (by simp)
  | [key, value] =>
    rw [resolveRecordOf]
    have second : Answers c pending enter value := answers value (by simp)
    have below := leads.tail.head
    rw [← scope.nested_generics (madeUpName scope.name member "")] at below
    have resolved := second.fine inv below "Value"
    refine resolved.bind fun found s₁ _ inv₁ _ => ?_
    refine (orObject_fine inv₁ found).bind fun use s₂ _ inv₂ _ => ?_
    refine (dictionaryUse_fine inv₂ _ _ _ _).bind fun _ _ _ inv₃ _ => ?_
    exact .pure inv₃ (by simp)

end lists

/-- The properties whose types resolve have come to those that were there. -/
structure Collects (D : Set Fact) (blocked : String → Prop) (generics : List String)
    (properties : List PropertyFact) (own own' : List Property) : Prop where
  kept : ∀ name ∈ own.map Property.name, name ∈ own'.map Property.name
  sound : ∀ name ∈ own'.map Property.name, name ∈ own.map Property.name ∨
    ∃ property ∈ properties, property.name = name ∧ Resolves D nothing generics property.type
  complete : ∀ property ∈ properties, Resolves D blocked generics property.type →
    property.name ∈ own'.map Property.name

theorem Collects.cons {D : Set Fact} {blocked fewer : String → Prop} {generics : List String}
    {property : PropertyFact} {rest : List PropertyFact} {own mid own' : List Property}
    {found : Bool}
    (decides : Decides D blocked generics property.type found)
    (first : ∀ name, name ∈ mid.map Property.name ↔
      name ∈ own.map Property.name ∨ (found = true ∧ name = property.name))
    (less : ∀ name, fewer name → blocked name) (others : Collects D fewer generics rest mid own') :
    Collects D blocked generics (property :: rest) own own' where
  kept name mem := others.kept name ((first name).mpr (.inl mem))
  sound name mem := by
    obtain before | ⟨other, inside, named, resolves⟩ := others.sound name mem
    · refine ((first name).mp before).imp_right fun ⟨isFound, named⟩ => ?_
      exact ⟨property, List.mem_cons_self, named.symm, decides.1 isFound⟩
    · exact .inr ⟨other, List.mem_cons_of_mem property inside, named, resolves⟩
  complete other mem resolves := by
    rw [List.mem_cons] at mem
    obtain rfl | inside := mem
    · refine others.kept _ ((first _).mpr (.inr ⟨?_, rfl⟩))
      cases found with
      | true => rfl
      | false => exact absurd resolves (decides.2 rfl)
    · exact others.complete other inside (resolves.anti less)

theorem addProperties_cons (property : PropertyFact) (rest : List PropertyFact) (id : NodeId) :
    addProperties c enter (property :: rest) id scope = (do
      let subject := scope.name ++ "." ++ property.name
      match ← resolveUse c enter property.type scope property.name with
      | none =>
        report .unresolvedType subject "property type could not be resolved; property skipped"
      | some resolved => addProperty id subject property resolved
      addProperties c enter rest id scope) := by
  cases property
  rfl

theorem addProperties_fine {properties : List PropertyFact}
    (answers : ∀ property ∈ properties, Answers c pending enter property.type)
    (inv : Inv c pending s)
    {id : NodeId} {own : List Property} (owned : Owned c pending s id)
    (record : RecordAt s.graph id own)
    (leads : Leads c pending s (namesOfProperties scope.generics properties)) :
    Fine c pending (some id) (addProperties c enter properties id scope) s fun _ s' =>
      ∃ own', RecordAt s'.graph id own' ∧
        ((∀ property ∈ properties, Clear (declared c.facts) s'.graph scope.generics property.type) →
          Collects (declared c.facts) (Blocked c pending s) scope.generics properties
            own own') := by
  induction properties generalizing s own with
  | nil =>
    rw [addProperties]
    exact .pure inv ⟨own, record, fun _ => ⟨fun _ mem => mem, fun _ mem => .inl mem, nofun⟩⟩
  | cons property rest ih =>
    have first := answers property List.mem_cons_self
    rw [namesOfProperties, PropertyFact.names_eq] at leads
    rw [addProperties_cons]
    refine (first scope property.name s inv (leads.mono (List.subset_append_left _ _))).before
      fun found s₁ grows₁ inv₁ decides => ?_
    have owned₁ := owned.later record.inside grows₁
    have record₁ := record.later grows₁
    -- The rest goes the same way whether or not the property has been added.
    have others : ∀ s₂ own₁, Grows c (some id) s₁ s₂ → Inv c pending s₂ →
        RecordAt s₂.graph id own₁ →
        (∀ other, other ∈ own₁.map Property.name ↔
          other ∈ own.map Property.name ∨ (found.isSome = true ∧ other = property.name)) →
        Fine c pending (some id) (addProperties c enter rest id scope) s₂ fun _ s' =>
          ∃ own', RecordAt s'.graph id own' ∧ ((∀ other ∈ property :: rest,
            Clear (declared c.facts) s'.graph scope.generics other.type) →
              Collects (declared c.facts)
              (Blocked c pending s) scope.generics (property :: rest) own own') := by
      intro s₂ own₁ grows₂ inv₂ record₂ added
      have below := (leads.mono (List.subset_append_right _ _)).later (grows₁.weaken.trans grows₂)
      refine (ih (fun other mem => answers other (List.mem_cons_of_mem _ mem)) inv₂
        (owned₁.later record₁.inside grows₂) record₂ below).mono ?_
      rintro _ s₃ grows₃ ⟨own', record₃, collects⟩
      refine ⟨own', record₃, fun clear => ?_⟩
      have here := clear _ List.mem_cons_self
      exact .cons (decides ((here.earlier grows₃.persists).earlier grows₂.persists)) added
        (Blocked.earlier (grows₁.weaken.trans grows₂))
        (collects fun other mem => clear other (List.mem_cons_of_mem _ mem))
    cases found with
    | none =>
      refine (report_fine inv₁ _ _ _).before fun _ s₂ grows₂ inv₂ _ => ?_
      exact others s₂ own grows₂.weaken inv₂ (record₁.later grows₂) (by simp)
    | some resolved =>
      refine (addProperty_fine inv₁ owned₁ record₁ _ _ resolved).bind ?_
      rintro _ s₂ grows₂ inv₂ ⟨own₁, record₂, added⟩
      exact others s₂ own₁ grows₂ inv₂ record₂ (by simpa using added)

theorem inlineProperties_fine {properties : List PropertyFact}
    (answers : ∀ property ∈ properties, Answers c pending enter property.type)
    (inv : Inv c pending s)
    (leads : Leads c pending s (namesOfProperties scope.generics properties)) (stem : String)
    {suffix : String} (visible : Text.isBlankText suffix.toList = false) :
    Fine c pending none (inlineRecord (stem ++ suffix) scope (addProperties c enter properties)) s
      fun _ _ => True := by
  refine inlineRecord_fine inv stem visible scope fun id s₁ grows₁ inv₁ owned₁ record₁ => ?_
  have below := leads.later grows₁
  rw [← scope.nested_generics (stem ++ suffix)] at below
  refine (addProperties_fine answers inv₁ owned₁ record₁ below).mono ?_
  rintro _ _ - ⟨own, record₂, -⟩
  exact ⟨own, record₂⟩

theorem dictionaryValue_fine {key : IndexKey} {value : TypeExpr}
    (answers : Answers c pending enter value)
    (inside : ∀ properties signatures, value = .object properties signatures →
      ∀ property ∈ properties, Answers c pending enter property.type)
    (inv : Inv c pending s) (leads : Leads c pending s (value.names scope.generics))
    (stem : String) :
    Fine c pending none (dictionaryValue c enter ⟨key, value⟩ scope stem) s fun _ _ => True := by
  have record : ∀ properties signatures, value = .object properties signatures →
      namesOfProperties scope.generics properties ⊆ value.names scope.generics →
      Fine c pending none (inlineRecord (Name.pascal stem ++ "Value") scope
        (addProperties c enter properties)) s fun _ _ => True :=
        fun properties signatures isObject subset =>
    inlineProperties_fine (inside properties signatures isObject) inv (leads.mono subset) _
      (by decide)
  rw [dictionaryValue.eq_def]
  dsimp only
  split
  · rename_i properties
    refine record properties [] rfl ?_
    cases properties <;> exact List.Subset.refl _
  · rename_i property properties signature
    exact record (property :: properties) [signature] rfl (List.Subset.refl _)
  · rename_i properties first second rest
    refine record properties (first :: second :: rest) rfl ?_
    cases properties <;> exact List.Subset.refl _
  · rw [← scope.nested_generics stem] at leads
    exact (answers.fine inv leads "Value").bind fun found _ _ inv₁ _ => orObject_fine inv₁ found

theorem Decides.only {D : Set Fact} {blocked : String → Prop} {generics : List String}
    {members : List TypeExpr} {type : TypeExpr} {found : Bool} (single : nonNull members = [type])
    (decides : Decides D blocked generics type found) :
    Decides D blocked generics (.union members) found := by
  refine ⟨fun isFound => .only single (decides.1 isFound), fun missing resolves => ?_⟩
  obtain several | ⟨other, isOther, resolves⟩ := resolves_union_iff.mp resolves
  · rw [single] at several
    exact several rfl
  · rw [single, List.singleton_inj] at isOther
    exact decides.2 missing (isOther ▸ resolves)

theorem mem_nonNull {members : List TypeExpr} {type : TypeExpr} (mem : type ∈ nonNull members) :
    type ∈ members := (List.mem_filter.mp mem).1

theorem namesOfAll_nonNull (generics : List String) (members : List TypeExpr) :
    namesOfAll generics (nonNull members) ⊆ namesOfAll generics members := by
  intro name mem
  obtain ⟨type, inside, named⟩ := mem_namesOfAll.mp mem
  exact mem_namesOfAll.mpr ⟨type, mem_nonNull inside, named⟩

theorem classUnion_fine (inv : Inv c pending s) (member : String) {nullable : Bool} {count : Nat}
    (found : Option (List TypeUse)) :
    Fine c pending none (match found with
      | some uses => do
        let base ← tryGraph (·.unionBase count)
        let stem := madeUpName scope.name member ""
        let id ← registerAnonymous (stem ++ "Union") (.classUnionInstance base uses)
          (scope.level + 1)
        return some (⟨.ofNode id, nullable⟩ : Resolved)
      | none => do
        report .lossyUnion (scope.name ++ "." ++ member)
          ("union of " ++ toString count ++ " members collapsed to object")
        return some ⟨← primitiveUse .object, nullable⟩) s fun result _ => result.isSome = true := by
  cases found with
  | none =>
    refine (report_fine inv _ _ _).bind fun _ _ _ inv₁ _ => ?_
    exact (primitiveUse_fine inv₁ .object).bind fun _ _ _ inv₂ _ => .pure inv₂ rfl
  | some uses =>
    obtain ⟨base, g', done, adds⟩ := unionBase_adds inv.tidy count
    refine (Fine.tryGraph inv done adds).bind fun _ _ _ inv₁ _ => ?_
    refine (registerAnonymous_fine inv₁ _ (by decide) rfl (fun _ => rfl) _).bind
      fun _ _ _ inv₂ _ => ?_
    exact .pure inv₂ rfl

theorem unionUse_fine (enters : Enters c pending enter) (inv : Inv c pending s)
    {members : List TypeExpr}
    (leads : Leads c pending s (namesOfAll scope.generics members)) (member : String)
    {only : Ingest (Option Resolved)} {records : Ingest (Option (List TypeUse))}
    (onlyFine : ∀ s₁, Grows c none s s₁ → Inv c pending s₁ →
      Fine c pending none only s₁ fun found s₂ =>
      ∀ type, nonNull members = [type] → Clear (declared c.facts) s₂.graph scope.generics type →
        Decides (declared c.facts) (Blocked c pending s₁) scope.generics type found.isSome)
    (recordsFine : ∀ s₁, Grows c none s s₁ → Inv c pending s₁ →
      Fine c pending none records s₁ fun _ _ => True) :
    Fine c pending none (unionUse c enter members scope member only records) s fun found s' =>
      Clear (declared c.facts) s'.graph scope.generics (.union members) →
        Decides (declared c.facts) (Blocked c pending s) scope.generics (.union members)
          found.isSome := by
  have several : (nonNull members).length ≠ 1 → Decides (declared c.facts) (Blocked c pending s)
      scope.generics (.union members) true := fun some =>
    decides_whole (by simpa [TypeExpr.isWhole] using some)
  have types : (members.filter fun type => !type.isNullish) = nonNull members := rfl
  rw [unionUse, types]
  split
  · rename_i empty
    refine (primitiveUse_fine inv .null).bind fun _ _ _ inv₁ _ => .pure inv₁ fun _ => several ?_
    rw [List.isEmpty_iff.mp empty]
    exact Nat.zero_ne_one
  · have below := leads.mono (namesOfAll_nonNull scope.generics members)
    refine (literalUnion_fine enters inv _ below).bind fun found s₁ grows₁ inv₁ oneText => ?_
    have literal : found.isSome = true → Decides (declared c.facts) (Blocked c pending s)
        scope.generics (.union members) true := by
      intro isFound
      by_cases single : (nonNull members).length = 1
      · obtain ⟨text, isText⟩ := oneText isFound single
        exact .only isText (decides_whole rfl)
      · exact several single
    cases found with
    | some union =>
      cases union with
      | members members =>
        refine (registerAnonymous_fine inv₁ _ (by decide) rfl (fun _ => rfl) _).bind
          fun _ _ _ inv₂ _ => ?_
        exact .pure inv₂ fun _ => literal rfl
      | existing id => exact .pure inv₁ fun _ => literal rfl
    | none =>
      dsimp only
      split
      · rename_i single
        obtain ⟨type, isOnly⟩ := List.length_eq_one_iff.mp single
        refine (onlyFine s₁ grows₁ inv₁).bind fun found s₂ _ inv₂ decides => ?_
        refine .pure inv₂ fun clear => ?_
        rw [Option.isSome_map]
        exact .only isOnly ((decides type isOnly fun question asks =>
          clear question (.only isOnly asks)).earlier grows₁)
      · rename_i single
        split
        · exact (primitiveUse_fine inv₁ _).bind
            fun _ _ _ inv₂ _ => .pure inv₂ fun _ => several single
        · have refused : Fine c pending none (pure none : Ingest (Option (List TypeUse))) s₁
            fun _ _ => True := .pure inv₁ trivial
          split
          · refine (recordsFine s₁ grows₁ inv₁).bind fun found s₂ _ inv₂ _ => ?_
            exact (classUnion_fine inv₂ _ found).mono fun _ _ _ isSome _ => isSome ▸ several single
          · refine refused.bind fun found s₂ _ inv₂ _ => ?_
            exact (classUnion_fine inv₂ _ found).mono fun _ _ _ isSome _ => isSome ▸ several single

/-! ### References -/

def targetUse (c : Context) (enter : Nat → Ingest (Option NodeId)) (arguments : List TypeExpr)
    (scope : Scope) (member : String) : Option NodeId → Ingest (Option Resolved)
  | none => return none
  | some id => return some ⟨⟨.node id, 0, ← resolveArguments c enter arguments scope member⟩, false⟩

def builtinUse (c : Context) (enter : Nat → Ingest (Option NodeId)) (name : String)
    (arguments : List TypeExpr) (scope : Scope) (member : String) (builtin : Option Resolved) :
    Ingest (Option Resolved) := do
  if let some resolved := builtin then return some resolved
  else
    let target ← pure ((← getGraph).findByTypeText name)
    targetUse c enter arguments scope member target

section references
variable (orderly : Orderly c.facts) (enters : Enters c pending enter) {name : String}
  {origin : Option String} {arguments : List TypeExpr}
  (answers : ∀ type ∈ arguments, Answers c pending enter type) (inv : Inv c pending s)

include answers inv in
theorem targetUse_fine (leads : Leads c pending s (namesOfAll scope.generics arguments))
    (member : String) (target : Option NodeId) :
    Fine c pending none (targetUse c enter arguments scope member target) s fun found _ =>
      found.isSome = target.isSome := by
  cases target with
  | none => exact .pure inv rfl
  | some id =>
    exact (resolveArguments_fine answers inv leads member).bind fun _ _ _ inv₁ _ => .pure inv₁ rfl

include orderly enters answers inv in
theorem declared_fine (escapes : Escapes scope.generics name arguments)
    (leads : Leads c pending s (name :: namesOfAll scope.generics arguments)) (member : String)
    {place : Nat} {fact : Fact} (there : c.facts[place]? = some fact) (named : fact.name = name) :
    Fine c pending none (enter place >>= targetUse c enter arguments scope member) s fun found s' =>
      Clear (declared c.facts) s'.graph scope.generics (.reference name origin arguments) →
        Decides (declared c.facts) (Blocked c pending s) scope.generics
          (.reference name origin arguments) found.isSome := by
  have mem : fact ∈ declared c.facts := List.mem_of_getElem? there
  have called : Leads c pending s [fact.name] := leads.mono (by simp [named])
  refine (enters place fact s there inv called).bind
    fun target s₁ grows₁ inv₁ ⟨built, missing⟩ => ?_
  have below := (leads.mono (List.subset_cons_self _ _)).later grows₁
  refine (targetUse_fine answers inv₁ below member target).mono fun found s₂ grows₂ same clear => ?_
  have clear₁ : ClearFact (declared c.facts) s₁.graph fact := fun type body array question asks =>
    (clear question (.through escapes mem named body array asks)).earlier grows₂.persists
  rw [Decides, same, resolves_declared_iff orderly.injOn mem named escapes,
    resolves_declared_iff orderly.injOn mem named escapes]
  constructor
  · intro isFound
    obtain ⟨id, isBuilt⟩ := built isFound
    exact ⟨not_false, (inv₁.stands place fact id there isBuilt).builds clear₁⟩
  · rintro isMissing ⟨free, builds⟩
    rw [Option.isSome_eq_false_iff, Option.isNone_iff_eq_none] at isMissing
    exact free (named ▸ missing isMissing clear₁ builds)

include answers inv in
theorem builtinUse_fine (leads : Leads c pending s (namesOfAll scope.generics arguments))
    (member : String) (builtin : Option Resolved) :
    Fine c pending none (builtinUse c enter name arguments scope member builtin) s fun found s' =>
      Settled (declared c.facts) s'.graph (.text name) → found.isSome = builtin.isSome := by
  cases builtin with
  | some resolved => exact .pure inv fun _ => rfl
  | none =>
    refine (Fine.getGraph inv).bind ?_
    rintro _ _ - - ⟨rfl, rfl⟩
    rw [pure_bind]
    generalize isTarget : s.graph.findByTypeText name = target
    refine (targetUse_fine answers inv leads member target).mono
      fun found s₁ grows₁ same settled => ?_
    have before : Settled (declared c.facts) s.graph (.text name) := settled.earlier grows₁.persists
    rw [same, ← isTarget, findByTypeText_eq_none before]
    rfl

include answers inv in
theorem undeclared_fine (escapes : Escapes scope.generics name arguments)
    (undeclared : Undeclared (declared c.facts) name)
    (leads : Leads c pending s (namesOfAll scope.generics arguments)) (member : String) :
    Fine c pending none (do
      let builtin ←
        if name == "Array" || name == "ReadonlyArray" then
          resolveArrayOf c enter arguments scope member
        else if name == "Record" then resolveRecordOf c enter arguments scope member
        else pure none
      builtinUse c enter name arguments scope member builtin) s fun found s' =>
        Clear (declared c.facts) s'.graph scope.generics (.reference name origin arguments) →
          Decides (declared c.facts) (Blocked c pending s) scope.generics
            (.reference name origin arguments) found.isSome := by
  have isArray :
      (name == "Array" || name == "ReadonlyArray") = true ↔ name ∈ ["Array", "ReadonlyArray"] := by
    simp
  split
  · rename_i array
    refine (resolveArrayOf_fine answers inv leads member).bind
      fun builtin s₁ grows₁ inv₁ ⟨single, decides⟩ => ?_
    refine (builtinUse_fine answers inv₁ (leads.later grows₁) member builtin).mono
      fun found s₂ grows₂ same clear => ?_
    rw [same (clear _ (.text escapes undeclared)), Decides,
      resolves_undeclared_iff escapes undeclared, resolves_undeclared_iff escapes undeclared]
    have agrees : ∀ element, arguments = [element] → Decides (declared c.facts)
        (Blocked c pending s)
        scope.generics element builtin.isSome := by
      rintro element rfl
      refine decides element rfl fun question asks => ?_
      exact (clear question (.arrayOf undeclared (isArray.mp array) asks)).earlier grows₂.persists
    constructor
    · intro isFound
      obtain ⟨element, isElement⟩ := single isFound
      exact .inl ⟨isArray.mp array, element, isElement, (agrees element isElement).1 isFound⟩
    · rintro isMissing (⟨-, element, isElement, resolves⟩ | ⟨rfl, -⟩)
      · exact (agrees element isElement).2 isMissing resolves
      · revert array
        decide
  · rename_i noArray
    split
    · rename_i record
      refine (resolveRecordOf_fine answers inv leads member).bind
        fun builtin s₁ grows₁ inv₁ pair => ?_
      refine (builtinUse_fine answers inv₁ (leads.later grows₁) member builtin).mono
        fun found s₂ grows₂ same clear => ?_
      rw [same (clear _ (.text escapes undeclared)), Decides,
        resolves_undeclared_iff escapes undeclared, resolves_undeclared_iff escapes undeclared]
      refine ⟨fun isFound => .inr ⟨by simpa using record, pair.mp isFound⟩, ?_⟩
      rintro isMissing (⟨array, -⟩ | ⟨-, isPair⟩)
      · exact noArray (isArray.mpr array)
      · rw [pair.mpr isPair] at isMissing
        cases isMissing
    · rename_i noRecord
      rw [pure_bind]
      refine (builtinUse_fine answers inv leads member none).mono
        fun found s₂ grows₂ same clear => ?_
      rw [same (clear _ (.text escapes undeclared)), Decides,
        resolves_undeclared_iff escapes undeclared, resolves_undeclared_iff escapes undeclared]
      refine ⟨nofun, ?_⟩
      rintro - (⟨array, -⟩ | ⟨record, -⟩)
      · exact noArray (isArray.mpr array)
      · exact noRecord (by simpa using record)

include orderly enters answers in
theorem reference_answers : Answers c pending enter (.reference name origin arguments) := by
  intro scope member s inv leads
  rw [resolveUse.eq_def]
  dsimp only
  split
  · rename_i inScope
    rw [Bool.and_eq_true, List.contains_iff_mem, List.isEmpty_iff] at inScope
    obtain ⟨mem, rfl⟩ := inScope
    exact .pure inv fun _ => ⟨fun _ => .inScope mem, nofun⟩
  · rename_i outside
    have escapes : Escapes scope.generics name arguments := Bool.eq_false_of_not_eq_true outside
    rw [TypeExpr.names, if_neg outside] at leads
    have byName : (origin.bind c.placeOfOrigin?).or (c.placesNamed name).head? =
        (c.placesNamed name).head? := by
      cases origin with
      | none => rfl
      | some origin => rw [Option.bind_some, orderly.placeOfOrigin?, Option.none_or]
    rw [byName]
    cases first : (c.placesNamed name).head? with
    | some place =>
      obtain ⟨fact, there, named⟩ := mem_placesNamed (List.mem_of_head? first)
      exact declared_fine orderly enters answers inv escapes leads member there named
    | none =>
      have undeclared : Undeclared (declared c.facts) name := by
        rintro fact mem rfl
        obtain ⟨place, there⟩ := List.mem_iff_getElem?.mp mem
        have inside := orderly.mem_placesNamed there
        rw [List.head?_eq_none_iff.mp first] at inside
        cases inside
      exact undeclared_fine answers inv escapes undeclared
        (leads.mono (List.subset_cons_self _ _)) member

end references

theorem resolveUse_record {properties : List PropertyFact} {signatures : List IndexSignature}
    (record : ∀ signature, properties = [] → signatures = [signature] → False) (member : String) :
    resolveUse c enter (.object properties signatures) scope member = (do
      let name := madeUpName scope.name member "Class"
      return some ⟨← inlineRecord name scope (addProperties c enter properties), false⟩) := by
  match properties, signatures with
  | [], [] | [], _ :: _ :: _ | _ :: _, _ => rfl
  | [], [signature] => exact (record signature rfl rfl).elim

end parts

theorem answers {c : Context} {pending : List Nat} {enter : Nat → Ingest (Option NodeId)}
    (orderly : Orderly c.facts) (enters : Enters c pending enter) (type : TypeExpr) :
    Answers c pending enter type := by
  -- By size, as the value of a dictionary is asked for its own properties, two levels below.
  induction size : sizeOf type using Nat.strong_induction_on generalizing type with
  | _ n ih =>
    subst size
    have part : ∀ types : List TypeExpr, sizeOf types < sizeOf type → ∀ other ∈ types,
        Answers c pending enter other := fun types small other mem =>
      ih _ ((List.sizeOf_lt_of_mem mem).trans small) other rfl
    have property : ∀ properties : List PropertyFact, sizeOf properties < sizeOf type →
        ∀ other ∈ properties, Answers c pending enter other.type := by
      intro properties small other mem
      have below : sizeOf other.type < sizeOf other := by
        cases other
        simp
        omega
      exact ih _ (below.trans ((List.sizeOf_lt_of_mem mem).trans small)) other.type rfl
    intro scope member s inv leads
    cases type with
    | reference name origin arguments =>
      exact reference_answers orderly enters (part arguments (by simp)) scope member s inv leads
    | primitive _ | stringLiteral _ | numberLiteral _ | booleanLiteral _ =>
      rw [resolveUse.eq_def]
      exact (primitiveUse_fine inv _).bind fun _ _ _ inv₁ _ => .pure inv₁ fun _ => decides_whole rfl
    | enumLiteral enumName literal value =>
      rw [TypeExpr.names] at leads
      rw [resolveUse.eq_def]
      refine (enumOfLiteral_fine enters orderly inv leads literal).bind
        fun found s₁ _ inv₁ agrees => .pure inv₁ fun clear => ?_
      have same := agrees (clear _ .literal)
      rw [Option.isSome_map, Decides, resolves_literal_iff, resolves_literal_iff, ← same]
      exact ⟨id, fun missing => Bool.not_eq_true _ ▸ missing⟩
    | union members =>
      rw [TypeExpr.names] at leads
      rw [resolveUse.eq_def]
      have members' := part members (by simp)
      exact unionUse_fine enters inv leads member
        (fun s₁ grows₁ inv₁ => resolveOnly_fine members' inv₁ (leads.later grows₁) member)
        (fun s₁ grows₁ inv₁ => resolveRecords_fine members' inv₁ (leads.later grows₁) member 1)
    | enumeration entries =>
      rw [resolveUse.eq_def]
      refine (enumMembers_fine inv _ _).bind fun members s₁ _ inv₁ _ => ?_
      refine (registerAnonymous_fine inv₁ _ (by decide) rfl (fun _ => rfl) _).bind
        fun _ _ _ inv₂ _ => ?_
      exact .pure inv₂ fun _ => decides_whole rfl
    | object properties signatures =>
      by_cases dictionary : ∃ signature, properties = [] ∧ signatures = [signature]
      · obtain ⟨⟨key, value⟩, rfl, rfl⟩ := dictionary
        rw [TypeExpr.names, IndexSignature.names] at leads
        rw [resolveUse.eq_def]
        have inside : ∀ properties signatures, value = .object properties signatures →
            ∀ other ∈ properties, Answers c pending enter other.type := by
          rintro properties signatures rfl
          exact property properties (by simp; omega)
        refine (dictionaryValue_fine (ih _ (by simp; omega) value rfl) inside inv leads _).bind
          fun use s₁ _ inv₁ _ => ?_
        refine (dictionaryUse_fine inv₁ _ _ _ _).bind fun _ _ _ inv₂ _ => ?_
        exact .pure inv₂ fun _ => decides_whole rfl
      · have record : ∀ signature, properties = [] → signatures = [signature] → False :=
          fun signature empty single => dictionary ⟨signature, empty, single⟩
        rw [TypeExpr.names_record record] at leads
        rw [resolveUse_record record]
        refine (inlineProperties_fine (property properties (by simp; omega)) inv leads _
          (by decide)).bind fun use s₁ _ inv₁ _ => ?_
        exact .pure inv₁ fun _ => decides_whole rfl
    | array element =>
      rw [TypeExpr.names] at leads
      rw [resolveUse.eq_def]
      refine (ih (sizeOf element) (by simp) element rfl scope member s inv leads).bind
        fun found s₁ _ inv₁ decides => .pure inv₁ fun clear => ?_
      rw [Option.isSome_map, Decides, resolves_array_iff, resolves_array_iff]
      exact decides fun question asks => clear question (.array asks)
    | tuple elements =>
      rw [TypeExpr.names, ← scope.nested_generics (madeUpName scope.name member "")] at leads
      rw [resolveUse.eq_def]
      refine (resolveItems_fine (part elements (by simp)) inv leads 1).bind
        fun uses s₁ _ inv₁ _ => ?_
      refine (registerAnonymous_fine inv₁ _ (by decide) rfl (fun _ => rfl) _).bind
        fun _ _ _ inv₂ _ => ?_
      exact .pure inv₂ fun _ => decides_whole rfl
    | parameter name =>
      rw [resolveUse.eq_def]
      refine .pure inv fun _ => ?_
      rw [Decides, resolves_parameter_iff, resolves_parameter_iff]
      by_cases mem : name ∈ scope.generics <;> simp [mem]

end TypeLoom.Ingest
