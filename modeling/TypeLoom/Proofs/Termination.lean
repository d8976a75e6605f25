import Mathlib.Data.List.Nodup
import Mathlib.Order.WellFounded
import TypeLoom.Proofs.Moves

/-! An ingest comes to an end, whatever the declarations refer to. Working on a type leads to its
parts and to the declarations that it names, and these again to types, so there are calls from
anywhere to anywhere; but a declaration that is being built is not entered again. Main result: the
recursion without any bound has exactly one solution, which is what an ingest runs, and nothing is
left of it after as many nested calls as there are declarations. -/
namespace TypeLoom

namespace Ingest
open TypeLoom.Graph TypeLoom.Fact Relation

/-- Places of the declarations that a type names itself. -/
def Context.asked (c : Context) : TypeExpr → List Nat
  | .reference name origin _ => (c.place? name origin).toList
  | .enumLiteral enumName _ _ => (enumName.map c.placesNamed).getD []
  | _ => []

/-- What an ingest works on while the declarations at `pending` are being built. -/
inductive Call where
  | declaration (pending : List Nat) (place : Nat)
  | type (pending : List Nat) (type : TypeExpr)

/-- The first call is made in the course of the second. -/
inductive Calls (c : Context) : Call → Call → Prop
  | stands {pending : List Nat} {place : Nat} {fact : Fact} {type : TypeExpr}
      (fresh : place ∉ pending) (there : c.facts[place]? = some fact) (stands : type ∈ fact.types) :
      Calls c (.type (place :: pending) type) (.declaration pending place)
  | part {pending : List Nat} {whole part : TypeExpr} (listed : part ∈ whole.parts) :
      Calls c (.type pending part) (.type pending whole)
  | asks {pending : List Nat} {type : TypeExpr} {place : Nat} (asked : place ∈ c.asked type) :
      Calls c (.declaration pending place) (.type pending type)

/-- Places of the declarations that are not being built. -/
def Context.free (c : Context) (pending : List Nat) : List Nat :=
  (List.range c.facts.length).filter fun place => !pending.contains place

theorem mem_free {c : Context} {pending : List Nat} {place : Nat} :
    place ∈ c.free pending ↔ place < c.facts.length ∧ place ∉ pending := by
  simp [Context.free]

theorem length_free_nil (c : Context) : (c.free []).length = c.facts.length := by
  simp [Context.free]

theorem length_free_cons {c : Context} {pending : List Nat} {place : Nat} {fact : Fact}
    (fresh : place ∉ pending) (there : c.facts[place]? = some fact) :
    (c.free pending).length = (c.free (place :: pending)).length + 1 := by
  have inside : place ∈ c.free pending :=
    mem_free.mpr ⟨(List.getElem?_eq_some_iff.mp there).1, fresh⟩
  have nodup : (c.free pending).Nodup := List.nodup_range.filter _
  have erased : c.free (place :: pending) = (c.free pending).erase place := by
    rw [nodup.erase_eq_filter, Context.free, Context.free, List.filter_filter]
    refine List.filter_congr fun other _ => ?_
    simp [bne, Bool.beq_eq_decide_eq]
  rw [erased, List.length_erase_of_mem inside]
  have := List.length_pos_of_mem inside
  omega

/-- The size of a call: how many declarations can still be entered, and the size of the type. -/
noncomputable def Call.size (c : Context) : Call → Nat × Nat
  | .declaration pending _ => ((c.free pending).length, 0)
  | .type pending expr => ((c.free pending).length, sizeOf expr)

theorem Calls.size_lt {c : Context} {inner outer : Call} (calls : Calls c inner outer) :
    Prod.Lex (· < ·) (· < ·) (inner.size c) (outer.size c) := by
  cases calls with
  | stands fresh there _ =>
    refine .left _ _ ?_
    rw [length_free_cons fresh there]
    exact Nat.lt_succ_self _
  | part listed => exact .right _ (TypeExpr.sizeOf_lt_of_mem_parts listed)
  | @asks _ type _ _ =>
    refine .right _ ?_
    cases type <;> simp

theorem calls_wellFounded (c : Context) : WellFounded (Calls c) :=
  Subrelation.wf Calls.size_lt
    (InvImage.wf (Call.size c) (WellFounded.prod_lex Nat.lt_wfRel.wf Nat.lt_wfRel.wf))

/-- A type names a declaration, itself or in its parts. -/
inductive Context.Needs (c : Context) : TypeExpr → Nat → Prop
  | asks {type : TypeExpr} {place : Nat} (asked : place ∈ c.asked type) : Needs c type place
  | part {whole part : TypeExpr} {place : Nat} (listed : part ∈ whole.parts)
      (needs : Needs c part place) : Needs c whole place

theorem Context.Needs.calls {c : Context} {type : TypeExpr} {place : Nat}
    (needs : c.Needs type place) (pending : List Nat) :
    TransGen (Calls c) (.declaration pending place) (.type pending type) := by
  induction needs with
  | asks asked => exact .single (.asks asked)
  | part listed _ ih => exact .tail ih (.part listed)

section congruence
variable {c : Context} {enter other : Nat → Ingest (Option NodeId)}

theorem forIn_congr {α : Type} {xs : List α} {f g : α → PUnit → Ingest (ForInStep PUnit)}
    (same : ∀ x ∈ xs, f x = g x) : forIn xs PUnit.unit f = forIn xs PUnit.unit g := by
  induction xs with
  | nil => rfl
  | cons x rest ih =>
    have others := ih fun y listed => same y (List.mem_cons_of_mem x listed)
    simp only [List.forIn_cons, same x List.mem_cons_self, others]

theorem buildAll_congr {places : List Nat} (same : ∀ place ∈ places, enter place = other place) :
    buildAll enter places = buildAll other places := by
  induction places with
  | nil => rfl
  | cons place rest ih =>
    rw [buildAll, buildAll, same place List.mem_cons_self,
      ih fun next listed => same next (List.mem_cons_of_mem place listed)]

theorem existingEnum_congr {literals : List EnumLiteral}
    (same : ∀ literal ∈ literals, literal.enumName.isEmpty = false →
      ∀ place ∈ c.placesNamed literal.enumName, enter place = other place) :
    existingEnum c enter literals = existingEnum c other literals := by
  cases literals with
  | nil => rfl
  | cons first rest =>
    rw [existingEnum, existingEnum]
    split_ifs with unknown
    · rfl
    · rw [Bool.or_eq_true, not_or, Bool.not_eq_true] at unknown
      rw [buildAll_congr (same first List.mem_cons_self unknown.1)]

theorem asked_of_enumLiterals {types : List TypeExpr} {literals : List EnumLiteral}
    (found : enumLiterals? types = some literals) {literal : EnumLiteral} (mem : literal ∈ literals)
    (named : literal.enumName.isEmpty = false) :
    ∃ type ∈ types, c.asked type = c.placesNamed literal.enumName := by
  induction types generalizing literals with
  | nil =>
    cases found
    cases mem
  | cons type rest ih =>
    rw [enumLiterals?, List.mapM_cons] at found
    obtain ⟨first, isFirst, found⟩ := Option.bind_eq_some_iff.mp found
    obtain ⟨others, areOthers, found⟩ := Option.bind_eq_some_iff.mp found
    cases found
    rw [List.mem_cons] at mem
    obtain rfl | mem := mem
    · refine ⟨type, List.mem_cons_self, ?_⟩
      cases type with
      | enumLiteral enumName member value =>
        cases isFirst
        cases enumName with
        | none => cases named
        | some name => rfl
      | _ => cases isFirst
    · obtain ⟨other, listed, asked⟩ := ih areOthers mem
      exact ⟨other, List.mem_cons_of_mem type listed, asked⟩

theorem literalUnion_congr {types : List TypeExpr}
    (same : ∀ type ∈ types, ∀ place ∈ c.asked type, enter place = other place) (subject : String) :
    literalUnion c enter subject types = literalUnion c other subject types := by
  have enums (literals : List EnumLiteral) (found : enumLiterals? types = some literals) :
      existingEnum c enter literals = existingEnum c other literals := by
    refine existingEnum_congr fun literal mem named place listed => ?_
    obtain ⟨type, inside, asked⟩ := asked_of_enumLiterals found mem named
    exact same type inside place (asked ▸ listed)
  rw [literalUnion, literalUnion]
  cases found : enumLiterals? types with
  | none => rfl
  | some literals =>
    dsimp only
    rw [enums literals found]

theorem literalUnion_nonNull_congr {members : List TypeExpr}
    (same : ∀ type ∈ members, ∀ place ∈ c.asked type, enter place = other place)
    (subject : String) :
    literalUnion c enter subject (members.filter fun type => !type.isNullish) =
      literalUnion c other subject (members.filter fun type => !type.isNullish) :=
  literalUnion_congr (fun type listed => same type (List.mem_filter.mp listed).1) subject

theorem enumOfLiteral_congr {enumName : Option String}
    (same : ∀ place ∈ (enumName.map c.placesNamed).getD [], enter place = other place)
    (member : String) :
    enumOfLiteral c enter enumName member = enumOfLiteral c other enumName member := by
  rw [enumOfLiteral, enumOfLiteral, forIn_congr fun place listed => ?_]
  rw [same place listed]

/-- A type is resolved the same way, however else declarations are entered. -/
def Alike (c : Context) (enter other : Nat → Ingest (Option NodeId)) (type : TypeExpr) : Prop :=
  ∀ scope member, resolveUse c enter type scope member = resolveUse c other type scope member

section lists
variable {types : List TypeExpr} (alike : ∀ type ∈ types, Alike c enter other type)
include alike

theorem resolveOnly_congr (scope : Scope) (member : String) :
    resolveOnly c enter types scope member = resolveOnly c other types scope member := by
  induction types with
  | nil => rfl
  | cons type rest ih =>
    rw [resolveOnly, resolveOnly, alike type List.mem_cons_self,
      ih fun next listed => alike next (List.mem_cons_of_mem type listed)]

theorem resolveRecords_congr (scope : Scope) (member : String) (number : Nat) :
    resolveRecords c enter types scope member number =
      resolveRecords c other types scope member number := by
  induction types generalizing number with
  | nil => rfl
  | cons type rest ih =>
    have others := ih fun next listed => alike next (List.mem_cons_of_mem type listed)
    simp only [resolveRecords, alike type List.mem_cons_self _ _, others]

theorem resolveItems_congr (scope : Scope) (number : Nat) :
    resolveItems c enter types scope number = resolveItems c other types scope number := by
  induction types generalizing number with
  | nil => rfl
  | cons type rest ih =>
    have others := ih fun next listed => alike next (List.mem_cons_of_mem type listed)
    simp only [resolveItems, alike type List.mem_cons_self _ _, others]

theorem resolveArguments_congr (scope : Scope) (member : String) :
    resolveArguments c enter types scope member = resolveArguments c other types scope member := by
  induction types with
  | nil => rfl
  | cons type rest ih =>
    have others := ih fun next listed => alike next (List.mem_cons_of_mem type listed)
    simp only [resolveArguments, alike type List.mem_cons_self _ _, others]

theorem resolveArrayOf_congr (scope : Scope) (member : String) :
    resolveArrayOf c enter types scope member = resolveArrayOf c other types scope member := by
  rw [resolveArrayOf.eq_def, resolveArrayOf.eq_def]
  split
  · rw [alike _ List.mem_cons_self]
  · rfl

theorem resolveRecordOf_congr (scope : Scope) (member : String) :
    resolveRecordOf c enter types scope member = resolveRecordOf c other types scope member := by
  rw [resolveRecordOf.eq_def, resolveRecordOf.eq_def]
  split
  · simp only [alike _ (List.mem_cons_of_mem _ List.mem_cons_self) _ _]
  · rfl

end lists

theorem addProperties_congr {properties : List PropertyFact}
    (alike : ∀ property ∈ properties, Alike c enter other property.type) :
    addProperties c enter properties = addProperties c other properties := by
  funext id scope
  induction properties with
  | nil => rfl
  | cons property rest ih =>
    rw [addProperties_cons, addProperties_cons, alike property List.mem_cons_self,
      ih fun next listed => alike next (List.mem_cons_of_mem property listed)]

theorem dictionaryValue_congr {key : IndexKey} {value : TypeExpr}
    (alike : Alike c enter other value)
    (below : ∀ part ∈ value.parts, Alike c enter other part) (scope : Scope) (stem : String) :
    dictionaryValue c enter ⟨key, value⟩ scope stem =
      dictionaryValue c other ⟨key, value⟩ scope stem := by
  have record (properties : List PropertyFact) (signatures : List IndexSignature)
      (isObject : value = .object properties signatures) :
      addProperties c enter properties = addProperties c other properties := by
    subst isObject
    exact addProperties_congr fun property listed =>
      below _ (List.mem_append_left _ (List.mem_map_of_mem listed))
  rw [dictionaryValue.eq_def, dictionaryValue.eq_def c other]
  dsimp only
  split
  · rw [record _ _ rfl]
  · rw [record _ _ rfl]
  · rw [record _ _ rfl]
  · rw [alike]

theorem unionUse_congr {members : List TypeExpr}
    (same : ∀ type ∈ members, ∀ place ∈ c.asked type, enter place = other place) (scope : Scope)
    (member : String) (only : Ingest (Option Resolved)) (records : Ingest (Option (List TypeUse))) :
    unionUse c enter members scope member only records =
      unionUse c other members scope member only records := by
  simp only [unionUse, literalUnion_nonNull_congr same]

theorem reference_congr {name : String} {origin : Option String} {arguments : List TypeExpr}
    (same : ∀ place, c.place? name origin = some place → enter place = other place)
    (alike : ∀ type ∈ arguments, Alike c enter other type) :
    Alike c enter other (.reference name origin arguments) := by
  intro scope member
  unfold Context.place? at same
  rw [resolveUse.eq_def, resolveUse.eq_def c other]
  simp only [resolveArrayOf_congr alike, resolveRecordOf_congr alike, resolveArguments_congr alike]
  cases found : (origin.bind c.placeOfOrigin?).or (c.placesNamed name).head? with
  | none => rfl
  | some place => simp only [same place found]

theorem alike_of_needs {type : TypeExpr}
    (same : ∀ place, c.Needs type place → enter place = other place) :
    Alike c enter other type := by
  -- The value type of a dictionary may be a record, whose properties are parts of a part.
  induction size : sizeOf type using Nat.strong_induction_on generalizing type with
  | _ n ih =>
  subst size
  have parts (part : TypeExpr) (listed : part ∈ type.parts) : Alike c enter other part :=
    ih _ (TypeExpr.sizeOf_lt_of_mem_parts listed)
      (fun place needs => same place (.part listed needs)) rfl
  have asked (place : Nat) (listed : place ∈ c.asked type) := same place (.asks listed)
  have asks (part : TypeExpr) (listed : part ∈ type.parts) (place : Nat)
      (mem : place ∈ c.asked part) := same place (.part listed (.asks mem))
  cases type with
  | enumLiteral enumName literal value =>
    intro scope member
    rw [resolveUse.eq_def, resolveUse.eq_def c other]
    dsimp only
    rw [enumOfLiteral_congr asked]
  | union members =>
    intro scope member
    have own : ∀ type ∈ members, Alike c enter other type := parts
    have literals : ∀ type ∈ members, ∀ place ∈ c.asked type, enter place = other place := asks
    rw [resolveUse.eq_def, resolveUse.eq_def c other]
    dsimp only
    rw [unionUse_congr literals, resolveOnly_congr own, resolveRecords_congr own]
  | object properties signatures =>
    intro scope member
    by_cases dictionary : ∃ signature, properties = [] ∧ signatures = [signature]
    · obtain ⟨⟨key, value⟩, rfl, rfl⟩ := dictionary
      have inside : value ∈ (TypeExpr.object [] [⟨key, value⟩]).parts :=
        List.mem_singleton_self value
      have small := TypeExpr.sizeOf_lt_of_mem_parts inside
      have below (part : TypeExpr) (listed : part ∈ value.parts) : Alike c enter other part :=
        ih _ ((TypeExpr.sizeOf_lt_of_mem_parts listed).trans small)
          (fun place needs => same place (.part inside (.part listed needs))) rfl
      rw [resolveUse.eq_def, resolveUse.eq_def c other]
      dsimp only
      rw [dictionaryValue_congr (parts value inside) below]
    · have record (signature : IndexSignature) (empty : properties = [])
          (single : signatures = [signature]) : False := dictionary ⟨signature, empty, single⟩
      have fields (property : PropertyFact) (listed : property ∈ properties) :
          Alike c enter other property.type :=
        parts _ (List.mem_append_left _ (List.mem_map_of_mem listed))
      rw [resolveUse_record record, resolveUse_record record, addProperties_congr fields]
  | array element =>
    intro scope member
    rw [resolveUse.eq_def, resolveUse.eq_def c other]
    dsimp only
    rw [parts element (List.mem_singleton_self element)]
  | tuple elements =>
    intro scope member
    have own : ∀ type ∈ elements, Alike c enter other type := parts
    rw [resolveUse.eq_def, resolveUse.eq_def c other]
    simp only [resolveItems_congr own]
  | reference name origin arguments =>
    refine reference_congr (fun place found => asked place ?_) parts
    rw [Context.asked, found]
    exact List.mem_singleton_self place
  | _ => exact fun _ _ => rfl

/-- How the declarations that types name are entered makes no difference. -/
def Agree (c : Context) (enter other : Nat → Ingest (Option NodeId)) (type : TypeExpr) : Prop :=
  ∀ place, c.Needs type place → enter place = other place

theorem Agree.part {whole part : TypeExpr} (agree : Agree c enter other whole)
    (listed : part ∈ whole.parts) : Agree c enter other part :=
  fun place needs => agree place (.part listed needs)

theorem parameters_congr {own : List TypeParameter}
    (agree : ∀ type ∈ own.filterMap TypeParameter.default, Agree c enter other type)
    (scope : Scope) :
    parameters c enter scope own = parameters c other scope own := by
  induction own with
  | nil => rfl
  | cons parameter rest ih =>
    rw [List.filterMap_cons] at agree
    rw [parameters, parameters]
    cases default : parameter.default with
    | none =>
      rw [default] at agree
      simp only [ih agree]
    | some type =>
      rw [default] at agree
      have first := alike_of_needs (agree type List.mem_cons_self) scope parameter.name
      have others := ih fun next listed => agree next (List.mem_cons_of_mem type listed)
      simp only [first, others]

section declaration
variable {fact : Fact}
  (defaults : ∀ type ∈ fact.typeParameters.filterMap TypeParameter.default,
    Agree c enter other type)
include defaults

theorem aliasOrWrap_congr (scope : Scope) (type : TypeUse) :
    aliasOrWrap c enter fact scope type = aliasOrWrap c other fact scope type := by
  simp only [aliasOrWrap, parameters_congr defaults]

theorem declareDictionary_congr {signature : IndexSignature}
    (agree : Agree c enter other (.object [] [signature])) (place : Nat) (scope : Scope) :
    declareDictionary c enter place fact scope signature =
      declareDictionary c other place fact scope signature := by
  obtain ⟨key, value⟩ := signature
  have own : Agree c enter other value := agree.part (List.mem_singleton_self value)
  have values := @dictionaryValue_congr c enter other key value (alike_of_needs own)
    fun part listed => alike_of_needs (own.part listed)
  simp only [declareDictionary, parameters_congr defaults, values]

theorem declareRecord_congr {properties : List PropertyFact}
    (agree : ∀ property ∈ properties, Agree c enter other property.type) (place : Nat)
    (scope : Scope) :
    declareRecord c enter place fact scope properties =
      declareRecord c other place fact scope properties := by
  have fields := addProperties_congr fun property listed => alike_of_needs (agree property listed)
  simp only [declareRecord, parameters_congr defaults, fields]

theorem declareType_congr {type : TypeExpr} (agree : Agree c enter other type) (place : Nat) :
    declareType c enter place fact type = declareType c other place fact type := by
  have alike := alike_of_needs agree
  have parts (part : TypeExpr) (listed : part ∈ type.parts) := alike_of_needs (agree.part listed)
  cases type with
  | union members =>
    have asks : ∀ type ∈ members, ∀ place ∈ c.asked type, enter place = other place :=
      fun _ listed place asked => agree place (.part listed (.asks asked))
    simp only [declareType, literalUnion_nonNull_congr asks, alike _ _, aliasOrWrap_congr defaults]
  | object properties signatures =>
    by_cases dictionary : ∃ signature, properties = [] ∧ signatures = [signature]
    · obtain ⟨signature, rfl, rfl⟩ := dictionary
      simp only [declareType, declareDictionary_congr defaults agree]
    · have fields (property : PropertyFact) (listed : property ∈ properties) :
          Agree c enter other property.type :=
        agree.part (List.mem_append_left _ (List.mem_map_of_mem listed))
      have record (signature : IndexSignature) (empty : properties = [])
          (single : signatures = [signature]) : False := dictionary ⟨signature, empty, single⟩
      rw [declareType, declareType, declareRecord_congr defaults fields]
      · exact record
      · exact record
  | array element =>
    simp only [declareType, parameters_congr defaults,
      parts element (List.mem_singleton_self element) _ _]
  | tuple elements =>
    have own : ∀ type ∈ elements, Alike c enter other type := parts
    simp only [declareType, parameters_congr defaults, resolveItems_congr own]
  | reference | enumLiteral | parameter =>
    simp only [declareType, alike _ _, aliasOrWrap_congr defaults]
  | _ => rfl

end declaration

theorem declareFact_congr {fact : Fact} (agree : ∀ type ∈ fact.types, Agree c enter other type)
    (place : Nat) : declareFact c enter place fact = declareFact c other place fact := by
  have defaults := fun type listed => agree type (List.mem_append_left _ listed)
  have own := fun type listed => agree type (List.mem_append_right _ listed)
  rw [declareFact, declareFact]
  cases body : fact.body with
  | type type =>
    rw [body] at own
    exact declareType_congr defaults (own type (List.mem_singleton_self type)) place
  | constant initializer declared =>
    rw [body] at own
    cases declared with
    | none => rfl
    | some type =>
      have alike := alike_of_needs (own type (List.mem_singleton_self type))
      simp only [declareConstant, alike _ _]

end congruence

/-- One round of the recursion over declarations: the declaration at `place` is built, what it needs
by `build`. -/
def visit (c : Context) (build : List Nat → Nat → Ingest (Option NodeId)) (pending : List Nat)
    (place : Nat) : Ingest (Option NodeId) := do
  match ← built? place with
  | some id => return some id
  | none =>
    if pending.contains place then reportCycle c place
    else
      match c.facts[place]? with
      | none => return none
      | some fact =>
        let id ← declareFact c (build (place :: pending)) place fact
        if let some id := id then markBuilt place id
        return id

theorem declaration_succ (c : Context) (level : Nat) :
    declaration c (level + 1) = visit c (declaration c level) := rfl

section unbounded
variable {c : Context} {build other : List Nat → Nat → Ingest (Option NodeId)} {pending : List Nat}
  {place : Nat}

theorem visit_congr
    (same : ∀ fact, place ∉ pending → c.facts[place]? = some fact →
      declareFact c (build (place :: pending)) place fact =
        declareFact c (other (place :: pending)) place fact) :
    visit c build pending place = visit c other pending place := by
  refine bind_congr fun known => ?_
  cases known with
  | some id => rfl
  | none =>
    dsimp only
    split_ifs with isPending
    · rfl
    · cases there : c.facts[place]? with
      | none => rfl
      | some fact =>
        have fresh : place ∉ pending := fun listed => isPending (List.contains_iff_mem.mpr listed)
        dsimp only
        rw [same fact fresh there]

theorem visit_local (same : ∀ inner next,
      TransGen (Calls c) (.declaration inner next) (.declaration pending place) →
        build inner next = other inner next) :
    visit c build pending place = visit c other pending place := by
  refine visit_congr fun fact fresh there =>
    declareFact_congr (fun type stands next needs => ?_) place
  exact same _ next (.tail (needs.calls (place :: pending)) (.stands fresh there stands))

/-- Rounds inside one another, as many as `depth`, and `rest` below them. -/
def unfolded (c : Context) (rest : List Nat → Nat → Ingest (Option NodeId)) :
    (depth : Nat) → List Nat → Nat → Ingest (Option NodeId)
  | 0 => rest
  | depth + 1 => visit c (unfolded c rest depth)

/-- A solution of the recursion: one round more changes nothing. -/
def Unfolds (c : Context) (build : List Nat → Nat → Ingest (Option NodeId)) : Prop :=
  ∀ pending place, build pending place = visit c build pending place

theorem Unfolds.eq (first : Unfolds c build) (second : Unfolds c other) : build = other := by
  suffices same : ∀ call pending place, call = Call.declaration pending place →
      build pending place = other pending place by
    funext pending place
    exact same _ pending place rfl
  intro call
  induction call using (calls_wellFounded c).transGen.induction with
  | _ call ih =>
    rintro pending place rfl
    rw [first, second]
    exact visit_local fun inner next calls => ih _ calls inner next rfl

theorem declaration_zero (none : c.free pending = []) :
    declaration c 0 pending place = visit c build pending place := by
  refine bind_congr fun known => ?_
  cases known with
  | some id => rfl
  | none =>
    dsimp only
    split_ifs with isPending
    · rfl
    · rw [reportCycle]
      cases there : c.facts[place]? with
      | none => rfl
      | some fact =>
        have free : place ∈ c.free pending := mem_free.mpr
          ⟨(List.getElem?_eq_some_iff.mp there).1,
            fun listed => isPending (List.contains_iff_mem.mpr listed)⟩
        rw [none] at free
        cases free

/-- Declarations with a level for each one that is free. -/
def leveled (c : Context) (pending : List Nat) : Nat → Ingest (Option NodeId) :=
  declaration c (c.free pending).length pending

theorem leveled_unfolds (c : Context) : Unfolds c (leveled c) := by
  intro pending place
  rw [leveled]
  cases count : (c.free pending).length with
  | zero => exact declaration_zero (List.length_eq_zero_iff.mp count)
  | succ level =>
    rw [declaration_succ]
    refine visit_congr fun fact fresh there => ?_
    have fewer : level = (c.free (place :: pending)).length := by
      have := length_free_cons fresh there
      omega
    rw [leveled, fewer]

/-- What lies below as many rounds as there are free declarations, and one more, is not reached. -/
theorem unfolded_eq_leveled (rest : List Nat → Nat → Ingest (Option NodeId)) {depth : Nat}
    (deep : (c.free pending).length < depth) :
    unfolded c rest depth pending place = leveled c pending place := by
  induction depth generalizing pending place with
  | zero => cases deep
  | succ depth ih =>
    rw [unfolded, leveled_unfolds]
    refine visit_congr fun fact fresh there => ?_
    have below : unfolded c rest depth (place :: pending) = leveled c (place :: pending) := by
      funext next
      refine ih ?_
      have := length_free_cons fresh there
      omega
    rw [below]

def buildEach (c : Context) (build : List Nat → Nat → Ingest (Option NodeId)) : Ingest Unit := do
  for place in List.range c.facts.length do
    discard (build [] place)

theorem buildFacts_eq (c : Context) : buildFacts c = buildEach c (leveled c) := by
  rw [buildFacts, buildEach, leveled, length_free_nil]

end unbounded

/-- An ingest ends for all facts and settings. Every chain of nested calls ends, the resolution of a
type and the building of a declaration depend on the calls below them only, and so the recursion has
one solution, which is what an ingest runs. Whatever takes the place of the calls that are more than
one deeper than there are declarations left to build, the outcome is the same. -/
theorem ingest_terminates (c : Context) :
    WellFounded (Calls c) ∧
    (∀ enter other pending type,
      (∀ place, TransGen (Calls c) (.declaration pending place) (.type pending type) →
        enter place = other place) → Alike c enter other type) ∧
    (∀ build other pending place,
      (∀ inner next, TransGen (Calls c) (.declaration inner next) (.declaration pending place) →
        build inner next = other inner next) →
      visit c build pending place = visit c other pending place) ∧
    ∃ build, (∀ other, Unfolds c other ↔ other = build) ∧
      (∀ rest depth pending place, (c.free pending).length < depth →
        unfolded c rest depth pending place = build pending place) ∧
      ∀ g : Graph, ∃ s, (buildEach c build).run.run { graph := g } =
        ((g.ingest c.settings c.facts).1, s) ∧ s.graph = (g.ingest c.settings c.facts).2 := by
  refine ⟨calls_wellFounded c, fun _ _ pending _ same => ?_, fun _ _ _ _ => visit_local,
    leveled c, fun other => ?_, fun rest depth _ _ => unfolded_eq_leveled rest, fun g => ?_⟩
  · exact alike_of_needs fun place needs => same place (needs.calls pending)
  · exact ⟨fun unfolds => unfolds.eq (leveled_unfolds c), fun same => same ▸ leveled_unfolds c⟩
  · rw [← buildFacts_eq]
    exact ⟨_, rfl, rfl⟩

end Ingest

end TypeLoom
