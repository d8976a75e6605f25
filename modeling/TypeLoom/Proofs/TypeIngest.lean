import TypeLoom.Proofs.IdentityKeys
import TypeLoom.Proofs.Survivors
import TypeLoom.Proofs.Termination

/-! What the ingest of types leaves alone. Working on a type or on a type declaration changes
neither the constants nor the primitive types that are there, and it builds no constant: types name
type declarations only. -/
namespace TypeLoom

namespace Graph

/-! ### Changes that spare constants -/

/-- The nodes known as primitive types are those. -/
def Listed (g : Graph) : Prop :=
  ∀ kind id, g.primitives.get? kind = some id → g.shape? id = some (.primitive kind)

/-- Constants and primitive types stay as they are. -/
structure Spares (g g' : Graph) : Prop where
  shapes : ∀ id shape, g.shape? id = some shape → shape.isNamed = false → g'.shape? id = some shape
  constants : g'.constants = g.constants
  primitives : ∀ kind id, g.primitives.get? kind = some id → g'.primitives.get? kind = some id
  listed : g.Listed → g'.Listed

namespace Spares
variable {g g' g'' : Graph}

theorem refl (g : Graph) : Spares g g := ⟨fun _ _ found _ => found, rfl, fun _ _ known => known, id⟩

theorem trans (first : Spares g g') (second : Spares g' g'') : Spares g g'' where
  shapes id shape found fixed := second.shapes id shape (first.shapes id shape found fixed) fixed
  constants := second.constants.trans first.constants
  primitives kind id known := second.primitives kind id (first.primitives kind id known)
  listed := second.listed ∘ first.listed

theorem of_shapes (shapes : ∀ id shape, g.shape? id = some shape → shape.isNamed = false →
      g'.shape? id = some shape)
    (constants : g'.constants = g.constants) (primitives : g'.primitives = g.primitives) :
    Spares g g' where
  shapes := shapes
  constants := constants
  primitives _ _ known := primitives ▸ known
  listed listed kind id known := shapes id _ (listed kind id (primitives ▸ known)) rfl

theorem of_nodes (nodes : g'.nodes = g.nodes) (constants : g'.constants = g.constants)
    (primitives : g'.primitives = g.primitives) : Spares g g' := by
  refine of_shapes (fun id shape found _ => ?_) constants primitives
  rwa [shape?, nodes]

theorem of_push {node : Node} (nodes : g'.nodes = g.nodes.push node)
    (constants : g'.constants = g.constants) (primitives : g'.primitives = g.primitives) :
    Spares g g' := by
  refine of_shapes (fun id shape found _ => ?_) constants primitives
  obtain ⟨before, there, rfl⟩ := Option.map_eq_some_iff.mp found
  rw [shape?, nodes, Array.getElem?_push, if_neg (Array.getElem?_eq_some_iff.mp there).1.ne, there]
  rfl

end Spares

section functions
variable {g g' : Graph}

theorem push_spares (g : Graph) (node : Node) : Spares g (g.push node).2 := .of_push rfl rfl rfl

theorem supplant_spares (g : Graph) (old : NodeId) (node : Node) :
    Spares g (g.supplant old node).2 := by
  rw [supplant]
  cases g.nodes[old]? with
  | none => exact push_spares g node
  | some before =>
    have freed : Spares g (g.freeName old before.name) := by
      rw [freeName]
      split_ifs
      · exact .of_nodes rfl rfl rfl
      · exact .refl g
    exact freed.trans (.of_push rfl rfl rfl)

theorem settle_spares (steps : Nat) (g : Graph) (node : Node) :
    Spares g (settle steps g node).2 := by
  induction steps generalizing g node with
  | zero => exact push_spares g node
  | succ steps ih =>
    rw [settle]
    cases g.liveByName node.name with
    | none => exact push_spares g node
    | some other =>
      dsimp only
      cases g.nodes[other]? with
      | none => exact push_spares g node
      | some before =>
        dsimp only
        split_ifs
        · exact supplant_spares g other node
        · exact .of_nodes rfl rfl rfl
        · have noted (message : String) : Spares g (g.report .renamed node.name message) :=
            .of_nodes rfl rfl rfl
          exact (noted _).trans (ih _ _)

theorem identify_spares {node keyed : Node} (done : g.identify node = .ok (keyed, g')) :
    Spares g g' := by
  have fixed := (identify_sameKeys done).fixed
  refine .of_shapes (fun id shape found _ => ?_) fixed.constants fixed.primitives
  rwa [shape?, (identify_spec done).2.shape?_eq id]

theorem register_spares {node : Node} {id : NodeId} (done : g.register node = .ok (id, g')) :
    Spares g g' := by
  obtain ⟨⟨keyed, g₁⟩, identified, done⟩ := ok_of_bind done
  refine (identify_spares identified).trans ?_
  dsimp only at done
  split at done
  · cases done
    exact .refl _
  · split_ifs at done
    · cases done
      exact push_spares _ _
    · have settled := settle_spares (g₁.names.size + 1) g₁ keyed
      rwa [Except.ok.inj done] at settled

theorem unionBase_spares {arity : Nat} {id : NodeId} (done : g.unionBase arity = .ok (id, g')) :
    Spares g g' := by
  rw [unionBase] at done
  split at done
  · cases done
    exact .refl g
  · obtain ⟨⟨base, g₁⟩, registered, done⟩ := ok_of_bind done
    cases done
    exact (register_spares registered).trans (.of_nodes rfl rfl rfl)

theorem primitive_spares (g : Graph) (kind : Primitive) : Spares g (g.primitive kind).2 := by
  rw [primitive]
  split
  · exact .refl g
  · rename_i absent
    have pushed := push_spares g (primitiveNode kind)
    have last : (g.push (primitiveNode kind)).2.shape? g.nodes.size = some (.primitive kind) := by
      rw [shape?, push_nodes, Array.getElem?_push_size]
      rfl
    refine ⟨pushed.shapes, rfl, fun other id known => ?_, fun listed other id known => ?_⟩
    · refine (Table.get?_insert_of_ne _ _ ?_).trans known
      rintro rfl
      rw [absent] at known
      cases known
    · change (g.primitives.insert kind g.nodes.size).get? other = some id at known
      rw [Table.get?_insert] at known
      split_ifs at known with same
      · cases known
        rw [same]
        exact last
      · exact pushed.shapes id _ (listed other id known) rfl

theorem modifyShape_spares {f : Shape → Shape}
    (keeps : ∀ shape : Shape, shape.isNamed = false → f shape = shape) (g : Graph) (id : NodeId) :
    Spares g (g.modifyShape id f) := by
  refine .of_shapes (fun other shape found fixed => ?_) rfl rfl
  obtain ⟨node, there, rfl⟩ := Option.map_eq_some_iff.mp found
  rw [shape?, modifyShape_getElem?, there]
  split_ifs
  · exact congrArg some (keeps node.shape fixed)
  · rfl

theorem addProperty_spares (g : Graph) (id : NodeId) (property : Property) :
    Spares g (g.addProperty id property) := by
  refine modifyShape_spares (fun shape fixed => ?_) g id
  cases shape with
  | primitive _ | constants _ => rfl
  | _ => cases fixed

theorem addParameter_spares (g : Graph) (id : NodeId) (parameter : Parameter) :
    Spares g (g.addParameter id parameter) := by
  refine modifyShape_spares (fun shape fixed => ?_) g id
  cases shape with
  | primitive _ | constants _ => rfl
  | _ => cases fixed

theorem setDictionaryValue_spares (g : Graph) (id : NodeId) (value : TypeUse) :
    Spares g (g.modifyShape id (Ingest.setDictionaryValue value)) := by
  refine modifyShape_spares (fun shape fixed => ?_) g id
  cases shape with
  | primitive _ | constants _ => rfl
  | _ => cases fixed

end functions

end Graph

namespace Ingest
open TypeLoom.Graph TypeLoom.Fact

/-! ### Computations that spare constants -/

/-- Constants and primitive types stay as they are, and no constant is built. -/
structure Spares (c : Context) (s s' : State) : Prop where
  graph : s.graph.Spares s'.graph
  built : ∀ place fact, c.facts[place]? = some fact → fact.isType = false →
    s'.built.get? place = s.built.get? place

theorem Spares.refl (c : Context) (s : State) : Spares c s s := ⟨.refl _, fun _ _ _ _ => rfl⟩

theorem Spares.trans {c : Context} {s s' s'' : State} (first : Spares c s s')
    (second : Spares c s' s'') : Spares c s s'' where
  graph := first.graph.trans second.graph
  built place fact there constant :=
    (second.built place fact there constant).trans (first.built place fact there constant)

/-- The computation spares constants, also if it fails. -/
def Sparing {α : Type} (c : Context) (m : Ingest α) : Prop := ∀ s, Spares c s (m.run.run s).2

namespace Sparing
variable {α β : Type} {c : Context}

theorem pure (result : α) : Sparing c (pure result : Ingest α) := fun s => .refl c s

theorem bind {m : Ingest α} {f : α → Ingest β} (first : Sparing c m)
    (next : ∀ result, Sparing c (f result)) : Sparing c (m >>= f) := by
  intro s
  have spares := first s
  rw [ExceptT.run_bind, StateT.run_bind]
  generalize m.run.run s = outcome at spares ⊢
  obtain ⟨result, s₁⟩ := outcome
  cases result with
  | error e => exact spares
  | ok a => exact spares.trans (next a s₁)

theorem map {m : Ingest α} (f : α → β) (sparing : Sparing c m) : Sparing c (f <$> m) := by
  rw [map_eq_pure_bind]
  exact sparing.bind fun _ => pure _

theorem tryCatch {m : Ingest α} {handler : MissingIdentity → Ingest α} (sparing : Sparing c m)
    (caught : ∀ e, Sparing c (handler e)) : Sparing c (tryCatch m handler) := by
  intro s
  have spares := sparing s
  rw [ExceptT.run_tryCatch, StateT.run_bind]
  generalize m.run.run s = outcome at spares ⊢
  obtain ⟨result, s₁⟩ := outcome
  cases result with
  | ok a => exact spares
  | error e => exact spares.trans (caught e s₁)

theorem forIn {xs : List α} {body : α → PUnit → Ingest (ForInStep PUnit)}
    (each : ∀ x, Sparing c (body x ⟨⟩)) : Sparing c (forIn xs PUnit.unit body) := by
  induction xs with
  | nil => exact pure _
  | cons x rest ih =>
    rw [List.forIn_cons]
    refine (each x).bind fun step => ?_
    cases step with
    | done _ => exact pure _
    | yield _ => exact ih

theorem getGraph : Sparing c getGraph := fun s => .refl c s

theorem modifyGraph {f : Graph → Graph} (spares : ∀ g : Graph, g.Spares (f g)) :
    Sparing c (modifyGraph f) := fun s => ⟨spares s.graph, fun _ _ _ _ => rfl⟩

theorem withGraph {f : Graph → α × Graph} (spares : ∀ g : Graph, g.Spares (f g).2) :
    Sparing c (withGraph f) := fun s => ⟨spares s.graph, fun _ _ _ _ => rfl⟩

theorem tryGraph {f : Graph → Except MissingIdentity (α × Graph)}
    (spares : ∀ (g : Graph) (result : α) (g' : Graph), f g = .ok (result, g') → g.Spares g') :
    Sparing c (tryGraph f) := by
  intro s
  cases done : f s.graph with
  | error e =>
    rw [run_tryGraph_error done]
    exact .refl c s
  | ok pair =>
    rw [run_tryGraph_ok done]
    exact ⟨spares s.graph _ _ done, fun _ _ _ _ => rfl⟩

end Sparing

/-! ### Steps on the graph, and enums -/

section steps
variable {c : Context}

theorem report_sparing (kind : Finding.Kind) (subject message : String) :
    Sparing c (report kind subject message) := .modifyGraph fun _ => .of_nodes rfl rfl rfl

theorem primitiveUse_sparing (kind : Primitive) : Sparing c (primitiveUse kind) :=
  .bind (.withGraph fun g => primitive_spares g kind) fun _ => .pure _

theorem orObject_sparing (found : Option Resolved) : Sparing c (orObject found) := by
  cases found with
  | none => exact primitiveUse_sparing .object
  | some resolved => exact .pure _

theorem registerNamed_sparing (fact : Fact) (shape : Shape) :
    Sparing c (registerNamed fact shape) :=
  .tryGraph fun _ _ _ => register_spares

theorem registerAnonymous_sparing (name : String) (shape : Shape) (level : Nat) :
    Sparing c (registerAnonymous name shape level) := .tryGraph fun _ _ _ => register_spares

theorem addParameter_sparing (id : NodeId) (parameter : Parameter) :
    Sparing c (modifyGraph (·.addParameter id parameter)) :=
  .modifyGraph fun g => addParameter_spares g id parameter

theorem findUnion_sparing (member : String) (hint : Option String) :
    Sparing c (withGraph (·.findUnion member hint)) := by
  refine .withGraph fun g => ?_
  rw [findUnion]
  split
  · exact .refl g
  · exact .refl g
  · exact .refl g
  · exact .of_nodes rfl rfl rfl

theorem markBuilt_sparing {place : Nat} {fact : Fact} (there : c.facts[place]? = some fact)
    (isType : fact.isType = true) (id : NodeId) : Sparing c (markBuilt place id) := by
  intro s
  refine ⟨.refl _, fun other constant found notType => ?_⟩
  refine Table.get?_insert_of_ne _ _ ?_
  rintro rfl
  rw [there, Option.some_inj] at found
  rw [← found, isType] at notType
  cases notType

theorem initializerValue_sparing (subject text : String) (comment : Option String) :
    Sparing c (initializerValue subject text comment) := by
  rw [initializerValue]
  split
  · exact .pure _
  · refine (report_sparing _ _ _).bind fun _ => ?_
    split
    · exact .pure _
    · exact .pure _

theorem enumMembers_sparing (subject : String) (members : List (String × Option EnumValue)) :
    Sparing c (enumMembers subject members) := by
  refine .bind (.forIn fun entry => ?_) fun _ => .pure _
  cases entry.problem with
  | none => exact .pure _
  | some problem => exact (report_sparing _ _ _).bind fun _ => .pure _

end steps

section enums
variable {c : Context} {enter : Nat → Ingest (Option NodeId)}
  (enters : ∀ place, Sparing c (enter place))
include enters

theorem buildAll_sparing (places : List Nat) : Sparing c (buildAll enter places) := by
  induction places with
  | nil => exact .pure _
  | cons place rest ih =>
    have built : Sparing c (do discard (enter place); return true) :=
      .bind (.map _ (enters place)) fun _ => .pure _
    rw [buildAll]
    refine (built.tryCatch fun _ => .pure _).bind fun fine => ?_
    split
    · exact ih
    · exact .pure _

theorem existingEnum_sparing (literals : List EnumLiteral) :
    Sparing c (existingEnum c enter literals) := by
  rw [existingEnum.eq_def]
  split
  · exact .pure _
  · split
    · exact .pure _
    · refine (buildAll_sparing enters _).bind fun fine => ?_
      split
      · exact .pure _
      · refine (findUnion_sparing _ _).bind fun found => ?_
        cases found with
        | none => exact .pure _
        | some id => exact Sparing.getGraph.bind fun _ => .pure _

theorem literalUnion_sparing (subject : String) (types : List TypeExpr) :
    Sparing c (literalUnion c enter subject types) := by
  rw [literalUnion]
  split
  · exact .pure _
  · split
    · exact .pure _
    · split
      · exact .pure _
      · split
        · exact .pure _
        · refine (existingEnum_sparing enters _).bind fun found => ?_
          cases found with
          | some id => exact .pure _
          | none => exact (enumMembers_sparing _ _).bind fun _ => .pure _

theorem enumOfLiteral_sparing (enumName : Option String) (member : String) :
    Sparing c (enumOfLiteral c enter enumName member) := by
  refine .bind (.forIn fun place => ?_) fun _ => findUnion_sparing _ _
  exact (Sparing.map _ (enters place)).bind fun _ => .pure _

end enums

/-! ### Types -/

section inline
variable {c : Context}

theorem closeRecord_sparing (id : NodeId) (generics : List String) :
    Sparing c (closeRecord id generics) := by
  refine Sparing.getGraph.bind fun g => .bind (.forIn fun name => ?_) fun _ => .pure _
  exact (addParameter_sparing id _).bind fun _ => .pure _

theorem inlineRecord_sparing (name : String) (scope : Scope) {add : NodeId → Scope → Ingest Unit}
    (adds : ∀ id scope, Sparing c (add id scope)) : Sparing c (inlineRecord name scope add) :=
  (registerAnonymous_sparing _ _ _).bind fun id =>
    (adds id _).bind fun _ => closeRecord_sparing id _

theorem addProperty_sparing (id : NodeId) (subject : String) (fact : PropertyFact)
    (resolved : Resolved) : Sparing c (addProperty id subject fact resolved) := by
  have add (property : Property) : Sparing c (modifyGraph (·.addProperty id property)) :=
    .modifyGraph fun g => addProperty_spares g id property
  rw [addProperty]
  cases fact.initializer with
  | none => exact add _
  | some text => exact (initializerValue_sparing _ _ _).bind fun _ => add _

theorem dictionaryUse_sparing (stem : String) (key : IndexKey) (value : TypeUse) (level : Nat) :
    Sparing c (dictionaryUse stem key value level) :=
  (registerAnonymous_sparing _ _ _).bind fun _ => .pure _

end inline

section uses
variable {c : Context} {enter : Nat → Ingest (Option NodeId)}

/-- The type is resolved without changing constants. -/
def Harmless (c : Context) (enter : Nat → Ingest (Option NodeId)) (type : TypeExpr) : Prop :=
  ∀ scope member, Sparing c (resolveUse c enter type scope member)

section lists
variable {types : List TypeExpr} (each : ∀ type ∈ types, Harmless c enter type)
include each

theorem resolveOnly_sparing (scope : Scope) (member : String) :
    Sparing c (resolveOnly c enter types scope member) := by
  induction types with
  | nil => exact .pure _
  | cons type rest ih =>
    rw [List.forall_mem_cons] at each
    rw [resolveOnly]
    split
    · exact ih each.2
    · exact each.1 scope member

theorem resolveRecords_sparing (scope : Scope) (member : String) (number : Nat) :
    Sparing c (resolveRecords c enter types scope member number) := by
  induction types generalizing number with
  | nil => exact .pure _
  | cons type rest ih =>
    rw [List.forall_mem_cons] at each
    rw [resolveRecords]
    split
    · exact ih each.2 number
    · refine (each.1 scope _).bind fun found => ?_
      cases found with
      | none => exact .pure _
      | some resolved =>
        refine Sparing.getGraph.bind fun g => ?_
        split
        · exact (ih each.2 _).bind fun _ => .pure _
        · exact .pure _

theorem resolveItems_sparing (scope : Scope) (number : Nat) :
    Sparing c (resolveItems c enter types scope number) := by
  induction types generalizing number with
  | nil => exact .pure _
  | cons type rest ih =>
    rw [List.forall_mem_cons] at each
    exact (each.1 scope _).bind fun found => (orObject_sparing found).bind fun _ =>
      (ih each.2 _).bind fun _ => .pure _

theorem resolveArguments_sparing (scope : Scope) (member : String) :
    Sparing c (resolveArguments c enter types scope member) := by
  induction types with
  | nil => exact .pure _
  | cons type rest ih =>
    rw [List.forall_mem_cons] at each
    exact (each.1 scope _).bind fun found => (orObject_sparing found).bind fun _ =>
      (ih each.2).bind fun _ => .pure _

theorem resolveArrayOf_sparing (scope : Scope) (member : String) :
    Sparing c (resolveArrayOf c enter types scope member) := by
  rw [resolveArrayOf.eq_def]
  split
  · exact (each _ List.mem_cons_self scope member).bind fun _ => .pure _
  · exact .pure _

theorem resolveRecordOf_sparing (scope : Scope) (member : String) :
    Sparing c (resolveRecordOf c enter types scope member) := by
  rw [resolveRecordOf.eq_def]
  split
  · exact (each _ (List.mem_cons_of_mem _ List.mem_cons_self) _ _).bind fun found =>
      (orObject_sparing found).bind fun _ => (dictionaryUse_sparing _ _ _ _).bind fun _ => .pure _
  · exact .pure _

end lists

theorem addProperties_sparing {properties : List PropertyFact}
    (each : ∀ property ∈ properties, Harmless c enter property.type) (id : NodeId) (scope : Scope) :
    Sparing c (addProperties c enter properties id scope) := by
  induction properties with
  | nil => exact .pure _
  | cons property rest ih =>
    rw [List.forall_mem_cons] at each
    rw [addProperties_cons]
    refine (each.1 scope _).bind fun found => ?_
    cases found with
    | none => exact (report_sparing _ _ _).bind fun _ => ih each.2
    | some resolved => exact (addProperty_sparing id _ _ _).bind fun _ => ih each.2

theorem dictionaryValue_sparing {key : IndexKey} {value : TypeExpr}
    (harmless : Harmless c enter value) (below : ∀ part ∈ value.parts, Harmless c enter part)
    (scope : Scope) (stem : String) :
    Sparing c (dictionaryValue c enter ⟨key, value⟩ scope stem) := by
  have record (properties : List PropertyFact) (signatures : List IndexSignature)
      (isObject : value = .object properties signatures) (name : String) :
      Sparing c (inlineRecord name scope (addProperties c enter properties)) := by
    subst isObject
    refine inlineRecord_sparing name scope (addProperties_sparing fun property listed => ?_)
    exact below _ (List.mem_append_left _ (List.mem_map_of_mem listed))
  rw [dictionaryValue.eq_def]
  dsimp only
  split
  · exact record _ _ rfl _
  · exact record _ _ rfl _
  · exact record _ _ rfl _
  · exact (harmless _ _).bind fun found => orObject_sparing found

variable (enters : ∀ place, Sparing c (enter place))
include enters

theorem unionUse_sparing (members : List TypeExpr) (scope : Scope) (member : String)
    {only : Ingest (Option Resolved)} {records : Ingest (Option (List TypeUse))}
    (first : Sparing c only) (all : Sparing c records) :
    Sparing c (unionUse c enter members scope member only records) := by
  have base (arity : Nat) : Sparing c (tryGraph (·.unionBase arity)) :=
    .tryGraph fun _ _ _ => unionBase_spares
  rw [unionUse]
  dsimp only
  split
  · exact (primitiveUse_sparing _).bind fun _ => .pure _
  · refine (literalUnion_sparing enters _ _).bind fun found => ?_
    cases found with
    | some union =>
      cases union with
      | members _ => exact (registerAnonymous_sparing _ _ _).bind fun _ => .pure _
      | existing _ => exact .pure _
    | none =>
      dsimp only
      split
      · exact first.bind fun _ => .pure _
      · split
        · exact (primitiveUse_sparing _).bind fun _ => .pure _
        · have lossy (subject message : String) (nullable : Bool) : Sparing c (do
              report .lossyUnion subject message
              return some (⟨← primitiveUse .object, nullable⟩ : Resolved)) :=
            (report_sparing _ _ _).bind fun _ => (primitiveUse_sparing _).bind fun _ => .pure _
          split
          · refine all.bind fun uses => ?_
            cases uses with
            | some uses =>
              exact (base _).bind fun _ => (registerAnonymous_sparing _ _ _).bind fun _ => .pure _
            | none => exact lossy _ _ _
          · exact lossy _ _ _

omit enters in
theorem targetUse_sparing {arguments : List TypeExpr}
    (each : ∀ type ∈ arguments, Harmless c enter type)
    (scope : Scope) (member : String) (target : Option NodeId) :
    Sparing c (targetUse c enter arguments scope member target) := by
  cases target with
  | none => exact .pure _
  | some id => exact (resolveArguments_sparing each scope member).bind fun _ => .pure _

omit enters in
theorem builtinUse_sparing {arguments : List TypeExpr}
    (each : ∀ type ∈ arguments, Harmless c enter type) (name : String) (scope : Scope)
    (member : String) (builtin : Option Resolved) :
    Sparing c (builtinUse c enter name arguments scope member builtin) := by
  cases builtin with
  | some resolved => exact .pure _
  | none =>
    rw [builtinUse.eq_def]
    refine Sparing.getGraph.bind fun g => ?_
    rw [pure_bind]
    exact targetUse_sparing each scope member _

theorem reference_sparing {name : String} {origin : Option String} {arguments : List TypeExpr}
    (each : ∀ type ∈ arguments, Harmless c enter type) :
    Harmless c enter (.reference name origin arguments) := by
  intro scope member
  rw [resolveUse.eq_def]
  dsimp only
  split
  · exact .pure _
  · cases (origin.bind c.placeOfOrigin?).or (c.placesNamed name).head? with
    | some place => exact (enters place).bind (targetUse_sparing each scope member)
    | none =>
      have builtin := builtinUse_sparing each name scope member
      dsimp only
      split
      · exact (resolveArrayOf_sparing each scope member).bind builtin
      · split
        · exact (resolveRecordOf_sparing each scope member).bind builtin
        · rw [pure_bind]
          exact builtin none

theorem resolveUse_sparing (type : TypeExpr) : Harmless c enter type := by
  induction size : sizeOf type using Nat.strong_induction_on generalizing type with
  | _ n ih =>
  subst size
  have parts (part : TypeExpr) (listed : part ∈ type.parts) : Harmless c enter part :=
    ih _ (TypeExpr.sizeOf_lt_of_mem_parts listed) part rfl
  cases type with
  | primitive _ | stringLiteral _ | numberLiteral _ | booleanLiteral _ =>
    exact fun _ _ => (primitiveUse_sparing _).bind fun _ => .pure _
  | enumLiteral enumName literal value =>
    exact fun _ _ => (enumOfLiteral_sparing enters _ _).bind fun _ => .pure _
  | union members =>
    intro scope member
    exact unionUse_sparing enters members scope member (resolveOnly_sparing parts scope member)
      (resolveRecords_sparing parts scope member 1)
  | enumeration entries =>
    exact fun _ _ => (enumMembers_sparing _ _).bind fun _ =>
      (registerAnonymous_sparing _ _ _).bind fun _ => .pure _
  | object properties signatures =>
    intro scope member
    by_cases dictionary : ∃ signature, properties = [] ∧ signatures = [signature]
    · obtain ⟨⟨key, value⟩, rfl, rfl⟩ := dictionary
      have inside : value ∈ (TypeExpr.object [] [⟨key, value⟩]).parts :=
        List.mem_singleton_self value
      have small := TypeExpr.sizeOf_lt_of_mem_parts inside
      have below (part : TypeExpr) (listed : part ∈ value.parts) : Harmless c enter part :=
        ih _ ((TypeExpr.sizeOf_lt_of_mem_parts listed).trans small) part rfl
      exact (dictionaryValue_sparing (parts value inside) below _ _).bind fun _ =>
        (dictionaryUse_sparing _ _ _ _).bind fun _ => .pure _
    · have record (signature : IndexSignature) (empty : properties = [])
          (single : signatures = [signature]) : False := dictionary ⟨signature, empty, single⟩
      rw [resolveUse_record record]
      refine (inlineRecord_sparing _ _ (addProperties_sparing fun property listed => ?_)).bind
        fun _ => .pure _
      exact parts _ (List.mem_append_left _ (List.mem_map_of_mem listed))
  | array element =>
    exact fun _ _ => (parts element (List.mem_singleton_self element) _ _).bind fun _ => .pure _
  | tuple elements =>
    exact fun _ _ => (resolveItems_sparing parts _ _).bind fun _ =>
      (registerAnonymous_sparing _ _ _).bind fun _ => .pure _
  | reference name origin arguments => exact reference_sparing enters parts
  | parameter name => exact fun _ _ => .pure _

/-! ### Type declarations -/

theorem parameters_sparing (scope : Scope) (own : List TypeParameter) :
    Sparing c (parameters c enter scope own) := by
  induction own with
  | nil => exact .pure _
  | cons parameter rest ih =>
    have others (default : Option TypeUse) : Sparing c (do
        return ⟨parameter.name, default⟩ :: (← parameters c enter scope rest)) :=
      ih.bind fun _ => .pure _
    rw [parameters]
    cases parameter.default with
    | none => exact others none
    | some type => exact (resolveUse_sparing enters type _ _).bind fun _ => others _

theorem aliasOrWrap_sparing (fact : Fact) (scope : Scope) (type : TypeUse) :
    Sparing c (aliasOrWrap c enter fact scope type) := by
  rw [aliasOrWrap]
  split
  · exact .withGraph fun g => primitive_spares g .object
  · split
    · exact (parameters_sparing enters scope _).bind fun _ => registerNamed_sparing _ _
    · split
      · exact .pure _
      · exact (parameters_sparing enters scope _).bind fun _ => registerNamed_sparing _ _

section place
variable {place : Nat} {fact : Fact} (there : c.facts[place]? = some fact)
  (isType : fact.isType = true)
include there isType

theorem declareDictionary_sparing (scope : Scope) (signature : IndexSignature) :
    Sparing c (declareDictionary c enter place fact scope signature) := by
  obtain ⟨key, value⟩ := signature
  have last := @dictionaryValue_sparing c enter key value (resolveUse_sparing enters value)
    (fun part _ => resolveUse_sparing enters part) scope fact.name
  refine (parameters_sparing enters scope _).bind fun _ => (primitiveUse_sparing _).bind fun _ =>
    (registerNamed_sparing _ _).bind fun id => (markBuilt_sparing there isType id).bind fun _ =>
    last.bind fun _ => .bind (.modifyGraph fun g => ?_) fun _ => .pure _
  exact setDictionaryValue_spares g id _

theorem declareRecord_sparing (scope : Scope) (properties : List PropertyFact) :
    Sparing c (declareRecord c enter place fact scope properties) := by
  have add (id : NodeId) := addProperties_sparing
    (fun (property : PropertyFact) (_ : property ∈ properties) =>
      resolveUse_sparing enters property.type) id scope
  refine (registerNamed_sparing _ _).bind fun id =>
    (markBuilt_sparing there isType id).bind fun _ =>
    (parameters_sparing enters scope _).bind fun own => .bind (.forIn fun parameter => ?_) fun _ =>
    (add id).bind fun _ => .pure _
  exact (addParameter_sparing id parameter).bind fun _ => .pure _

theorem declareType_sparing (type : TypeExpr) :
    Sparing c (declareType c enter place fact type) := by
  have resolves (type : TypeExpr) := resolveUse_sparing enters type
  have wrap (scope : Scope) (type : TypeUse) : Sparing c (do
      return some (← aliasOrWrap c enter fact scope type)) :=
    (aliasOrWrap_sparing enters fact scope type).bind fun _ => .pure _
  have named (shape : Shape) : Sparing c (do return some (← registerNamed fact shape)) :=
    (registerNamed_sparing fact shape).bind fun _ => .pure _
  cases type with
  | primitive kind => exact .bind (.withGraph fun g => primitive_spares g kind) fun _ => .pure _
  | stringLiteral _ | numberLiteral _ | booleanLiteral _ =>
    exact (resolves _ _ _).bind fun _ => .pure _
  | enumeration entries => exact (enumMembers_sparing _ _).bind fun _ => named _
  | union members =>
    rw [declareType]
    refine (literalUnion_sparing enters _ _).bind fun found => ?_
    cases found with
    | some union =>
      cases union with
      | members members => exact named _
      | existing id => exact .pure _
    | none =>
      refine (resolves _ _ _).bind fun found => ?_
      cases found with
      | some resolved => exact wrap _ _
      | none => exact .pure _
  | object properties signatures =>
    by_cases dictionary : ∃ signature, properties = [] ∧ signatures = [signature]
    · obtain ⟨signature, rfl, rfl⟩ := dictionary
      exact (declareDictionary_sparing enters there isType _ signature).bind fun _ => .pure _
    · have record (signature : IndexSignature) (empty : properties = [])
          (single : signatures = [signature]) : False := dictionary ⟨signature, empty, single⟩
      rw [declareType]
      · exact (declareRecord_sparing enters there isType _ properties).bind fun _ => .pure _
      · exact record
  | array element =>
    exact (parameters_sparing enters _ _).bind fun _ => (resolves _ _ _).bind fun found =>
      (orObject_sparing found).bind fun _ => named _
  | tuple elements =>
    exact (parameters_sparing enters _ _).bind fun _ =>
      (resolveItems_sparing (fun type _ => resolves type) _ _).bind fun _ => named _
  | reference _ _ _ | enumLiteral _ _ _ | parameter _ =>
    rw [declareType]
    refine (resolves _ _ _).bind fun found => ?_
    cases found with
    | some resolved => exact wrap _ _
    | none => exact (report_sparing _ _ _).bind fun _ => .pure _

end place

end uses

/-! ### All declarations that types name -/

section places
variable {c : Context}

theorem reportCycle_sparing (place : Nat) : Sparing c (reportCycle c place) := by
  rw [reportCycle]
  cases c.facts[place]? with
  | none => exact .pure _
  | some fact => exact (report_sparing _ _ _).bind fun _ => .pure _

theorem built?_sparing (place : Nat) {rest : Ingest (Option NodeId)} (sparing : Sparing c rest) :
    Sparing c (do
      match ← built? place with
      | some id => return some id
      | none => rest) := by
  have look : Sparing c (built? place) := fun s => .refl c s
  refine look.bind fun found => ?_
  cases found with
  | some id => exact .pure _
  | none => exact sparing

theorem mem_typeFacts {place : Nat} {fact : Fact} :
    (place, fact) ∈ c.typeFacts ↔ c.facts[place]? = some fact ∧ fact.isType = true := by
  simp [Context.typeFacts, List.mem_zipIdx_iff_getElem?]

theorem isType_of_needs {type : TypeExpr} {place : Nat} (needs : c.Needs type place) :
    (c.facts[place]?).any Fact.isType = true := by
  have found {place : Nat} {wanted : Nat × Fact → Bool}
      (listed : place ∈ (c.typeFacts.filter wanted).map Prod.fst) :
      (c.facts[place]?).any Fact.isType = true := by
    obtain ⟨⟨_, fact⟩, member, rfl⟩ := List.mem_map.mp listed
    obtain ⟨there, isType⟩ := mem_typeFacts.mp (List.mem_filter.mp member).1
    rw [there]
    exact isType
  induction needs with
  | part _ _ ih => exact ih
  | @asks type place asked =>
    cases type with
    | reference name origin arguments =>
      rw [Context.asked, Option.mem_toList, Context.place?, Option.or_eq_some_iff]
        at asked
      rcases asked with byOrigin | ⟨-, byName⟩
      · obtain ⟨text, -, isPlace⟩ := Option.bind_eq_some_iff.mp byOrigin
        exact found (List.mem_of_getLast? isPlace)
      · exact found (List.mem_of_head? byName)
    | enumLiteral enumName member value =>
      cases enumName with
      | none => cases asked
      | some name => exact found asked
    | _ => cases asked

def typesOnly (c : Context) (enter : Nat → Ingest (Option NodeId)) (place : Nat) :
    Ingest (Option NodeId) :=
  if (c.facts[place]?).any Fact.isType then enter place else return none

theorem agree_typesOnly (enter : Nat → Ingest (Option NodeId)) (type : TypeExpr) :
    Agree c enter (typesOnly c enter) type := by
  intro place needs
  rw [typesOnly, if_pos (isType_of_needs needs)]

theorem typesOnly_sparing {enter : Nat → Ingest (Option NodeId)}
    (enters : ∀ place fact, c.facts[place]? = some fact → fact.isType = true →
      Sparing c (enter place)) (place : Nat) : Sparing c (typesOnly c enter place) := by
  rw [typesOnly]
  split
  · rename_i isType
    obtain ⟨fact, there, isType⟩ := (Option.any_eq_true _ _).mp isType
    exact enters place fact there isType
  · exact .pure _

theorem declaration_sparing (level : Nat) (pending : List Nat) {place : Nat} {fact : Fact}
    (there : c.facts[place]? = some fact) (isType : fact.isType = true) :
    Sparing c (declaration c level pending place) := by
  induction level generalizing pending place fact with
  | zero =>
    rw [declaration]
    exact built?_sparing place (reportCycle_sparing place)
  | succ level ih =>
    rw [declaration]
    refine built?_sparing place ?_
    split
    · exact reportCycle_sparing place
    · rw [there]
      dsimp only
      have enters := typesOnly_sparing fun _ _ there isType => ih (place :: pending) there isType
      have agree := agree_typesOnly (c := c) (declaration c level (place :: pending))
      rw [declareFact_congr fun type _ => agree type, declareFact]
      cases body : fact.body with
      | constant _ _ =>
        rw [Fact.isType, body] at isType
        cases isType
      | type type =>
        refine (declareType_sparing enters there isType type).bind fun found => ?_
        cases found with
        | none => exact .pure _
        | some id => exact (markBuilt_sparing there isType id).bind fun _ => .pure _

theorem harmless_declaration (level : Nat) (pending : List Nat) (type : TypeExpr) :
    Harmless c (declaration c level pending) type := by
  intro scope member
  rw [alike_of_needs (agree_typesOnly (declaration c level pending) type)]
  exact resolveUse_sparing (typesOnly_sparing fun _ _ => declaration_sparing level pending) type _ _

end places

end Ingest

end TypeLoom
