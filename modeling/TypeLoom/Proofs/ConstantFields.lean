import TypeLoom.Proofs.ConstantTypes
import TypeLoom.Proofs.FileClosure
import TypeLoom.Proofs.MergedParameters
import TypeLoom.Proofs.Representatives
import TypeLoom.Proofs.TypeIngest

/-! The fields of constants. Each constant becomes a field, in order, except that of constants of
one name only the first one counts. A constant without a declared type gets the type of its value.
Main result: its field has that type, and the value fits the type if and only if no array in it has
a null beside a boolean or a number and arrays are not nested too deeply, unless the type is one of
objects. -/
namespace TypeLoom

/-! ### Types that are inferred -/

namespace Ranked

/-- What is known of the type after one more item. -/
def widen (known : Option Ranked) (r : Ranked) : Option Ranked :=
  some (known.elim r fun t => if t = r then t else object)

theorem foldl_widen_some (t : Ranked) (rs : List Ranked) :
    rs.foldl widen (some t) = some (if rs.all (· = t) then t else object) := by
  induction rs generalizing t with
  | nil => rfl
  | cons r rest ih =>
    rw [List.foldl_cons, widen, Option.elim_some, ih]
    by_cases same : t = r
    · simp [same]
    · simp [same, Ne.symm same]

theorem foldl_widen (rs : List Ranked) :
    rs.foldl widen none = if rs = [] then none else some (common rs) := by
  cases rs with
  | nil => rfl
  | cons r rest => exact foldl_widen_some r rest

end Ranked

namespace Ingest
open TypeLoom.Graph TypeLoom.Fact TypeLoom.Literal

def IsUse (g : Graph) (r : Ranked) (u : TypeUse) : Prop :=
  ∃ id, g.primitives.get? r.kind = some id ∧ u = ⟨.node id, r.depth, []⟩

section uses
variable {g g' : Graph} {r t : Ranked} {u v : TypeUse}

theorem IsUse.later (isUse : IsUse g r u) (spares : g.Spares g') : IsUse g' r u := by
  obtain ⟨id, known, rfl⟩ := isUse
  exact ⟨id, spares.primitives _ _ known, rfl⟩

theorem IsUse.deepen (isUse : IsUse g r u) : IsUse g r.deepen (u.deepen 1) := by
  obtain ⟨id, known, rfl⟩ := isUse
  exact ⟨id, known, rfl⟩

theorem IsUse.same_iff (listed : g.Listed) (first : IsUse g r u) (second : IsUse g t v) :
    u.same v = true ↔ r = t := by
  obtain ⟨id, known, rfl⟩ := first
  obtain ⟨other, known', rfl⟩ := second
  have kinds : id = other ↔ r.kind = t.kind := by
    constructor
    · rintro rfl
      have shape := listed _ _ known
      rw [listed _ _ known', Option.some_inj] at shape
      exact (Shape.primitive.inj shape).symm
    · intro kind
      rw [kind, known', Option.some_inj] at known
      exact known.symm
  obtain ⟨kind, depth⟩ := r
  obtain ⟨kind', depth'⟩ := t
  simp [TypeUse.same, TypeUse.sameAll, kinds]

end uses

/-- Nothing is changed by the inference of a type, except that primitive types may come in. -/
structure Infers (s : State) (r : Ranked) (u : TypeUse) (s' : State) : Prop where
  built : s'.built = s.built
  graph : s.graph.Spares s'.graph
  isUse : IsUse s'.graph r u

theorem primitiveUse_infers (s : State) (kind : Primitive) :
    Ensures (primitiveUse kind) s (Infers s ⟨kind, 0⟩) := by
  refine ⟨_, _, rfl, rfl, primitive_spares s.graph kind, _, ?_, rfl⟩
  show (s.graph.primitive kind).2.primitives.get? kind = some (s.graph.primitive kind).1
  rw [primitive]
  split
  · assumption
  · exact Table.get?_insert_self ..

/-- What is known of the type of items, and a use of it. -/
structure InfersItems (s : State) (known : Option Ranked) (found : Option TypeUse) (s' : State) :
    Prop where
  built : s'.built = s.built
  graph : s.graph.Spares s'.graph
  uses : Option.Rel (IsUse s'.graph) known found

theorem inferItems_infers {items : List Value}
    (each : ∀ item ∈ items, ∀ s : State, s.graph.Listed →
      Ensures (inferUse item) s (Infers s item.ranked))
    {s : State} (listed : s.graph.Listed) {known : Option Ranked} {element : Option TypeUse}
    (uses : Option.Rel (IsUse s.graph) known element) :
    Ensures (inferItems element items) s
      (InfersItems s ((itemTypes items).foldl Ranked.widen known)) := by
  induction items generalizing s known element with
  | nil => exact .pure ⟨rfl, .refl _, uses⟩
  | cons item rest ih =>
    rw [List.forall_mem_cons] at each
    rw [inferItems, itemTypes]
    split_ifs with null
    · exact ih each.2 listed uses
    · refine (each.1 s listed).bind fun inferred s₁ infers => ?_
      have others {s₂ : State} (built : s₂.built = s.built) (spares : s.graph.Spares s₂.graph)
          {r : Ranked} {u : TypeUse} (isUse : IsUse s₂.graph r u) :
          Ensures (inferItems (some u) rest) s₂
            (InfersItems s ((itemTypes rest).foldl Ranked.widen (some r))) :=
        (ih each.2 (spares.listed listed) (.some isUse)).mono fun _ _ more =>
          ⟨more.built.trans built, spares.trans more.graph, more.uses⟩
      cases uses with
      | none => exact others infers.built infers.graph infers.isUse
      | @some t use isUse =>
        -- The item may have brought in a primitive type; what was known is carried over to it.
        have before := isUse.later infers.graph
        have same := before.same_iff (infers.graph.listed listed) infers.isUse
        rw [List.foldl_cons, Ranked.widen, Option.elim_some]
        dsimp only
        by_cases equal : t = item.ranked
        · rw [if_pos (same.mpr equal), if_pos equal]
          exact others infers.built infers.graph before
        · rw [if_neg (mt same.mp equal), if_neg equal]
          exact (primitiveUse_infers s₁ .object).bind fun object s₂ widened =>
            others (widened.built.trans infers.built) (infers.graph.trans widened.graph)
              widened.isUse

theorem inferUse_infers (v : Value) :
    ∀ s : State, s.graph.Listed → Ensures (inferUse v) s (Infers s v.ranked) := by
  induction v using Value.induction_items with
  | null | bool _ | number _ | text _ => exact fun s _ => primitiveUse_infers s _
  | array items ih =>
    intro s listed
    rw [inferUse, Value.ranked]
    refine (inferItems_infers ih listed .none).bind fun found s₁ infers => ?_
    obtain ⟨built, graph, uses⟩ := infers
    rw [Ranked.foldl_widen] at uses
    split_ifs at uses with empty
    · cases uses
      refine (primitiveUse_infers s₁ .object).bind fun object s₂ widened => .pure ?_
      rw [empty]
      exact ⟨widened.built.trans built, graph.trans widened.graph, widened.isUse.deepen⟩
    · cases uses with
      | some isUse => exact .pure ⟨built, graph, isUse.deepen⟩

/-! ### Constants of a graph -/

/-- The value of a constant; an initializer without a value counts as null. -/
def initialValue (initializer : String) : Value :=
  (evaluate initializer).toOption.getD .null

/-- A constant that was made from a declaration. -/
structure Recorded (g : Graph) (fact : Fact) (constant : Constant) : Prop where
  name : constant.name = fact.name
  inferred : ∀ initializer, fact.body = .constant initializer none →
    constant.value = initialValue initializer ∧
      IsUse g (initialValue initializer).ranked constant.type

theorem Recorded.later {g g' : Graph} {fact : Fact} {constant : Constant}
    (recorded : Recorded g fact constant)
    (primitives : ∀ kind id, g.primitives.get? kind = some id → g'.primitives.get? kind = some id) :
    Recorded g' fact constant where
  name := recorded.name
  inferred initializer body := by
    obtain ⟨value, id, known, isUse⟩ := recorded.inferred initializer body
    exact ⟨value, id, primitives _ _ known, isUse⟩

/-- One more declaration, unless it is one of a type or there is a constant of its name. -/
def addFact (known : List Fact) (fact : Fact) : List Fact :=
  if fact.isType || known.any (fun other => other.name = fact.name) then known else known ++ [fact]

/-- The declarations of constants; of those of one name only the first. -/
def constantFacts (facts : List Fact) : List Fact := facts.foldl addFact []

/-- The constants in the graph are those of these declarations, in order. -/
structure Gathered (facts : List Fact) (g : Graph) : Prop where
  listed : g.Listed
  constants : constantFacts facts = [] ∧ g.constants = none ∨
    ∃ id items, g.constants = some id ∧ g.shape? id = some (.constants items) ∧
      List.Forall₂ (Recorded g) (constantFacts facts) items

theorem Gathered.later {facts : List Fact} {g g' : Graph} (gathered : Gathered facts g)
    (spares : g.Spares g') : Gathered facts g' where
  listed := spares.listed gathered.listed
  constants := by
    rw [spares.constants]
    refine gathered.constants.imp_right ?_
    rintro ⟨id, items, known, found, all⟩
    exact ⟨id, items, known, spares.shapes id _ found rfl,
      all.imp fun _ _ recorded => recorded.later spares.primitives⟩

theorem constantFacts_append (facts : List Fact) (fact : Fact) :
    constantFacts (facts ++ [fact]) = addFact (constantFacts facts) fact := by
  rw [constantFacts, List.foldl_append]
  rfl

theorem any_name_eq {g : Graph} {facts : List Fact} {items : List Constant}
    (all : List.Forall₂ (Recorded g) facts items) (name : String) :
    items.any (fun c => c.name = name) = facts.any fun fact => fact.name = name := by
  induction all with
  | nil => rfl
  | cons recorded _ ih => rw [List.any_cons, List.any_cons, ih, recorded.name]

theorem modifyShape_shape? {g : Graph} (unmoved : g.redirects = {}) (id other : NodeId)
    (f : Shape → Shape) : (g.modifyShape id f).shape? other =
      if id = other then (g.shape? other).map f else g.shape? other := by
  have here : g.resolve id = id := resolve_of_end (by rw [unmoved]; rfl)
  rw [shape?, modifyShape_getElem?, here]
  split_ifs
  · rw [shape?, Option.map_map, Option.map_map]
    rfl
  · rfl

theorem Gathered.addConstant {facts : List Fact} {g : Graph} (gathered : Gathered facts g)
    (unmoved : g.redirects = {}) {fact : Fact} (notType : fact.isType = false)
    {constant : Constant} (recorded : Recorded g fact constant) :
    Gathered (facts ++ [fact]) (g.addConstant constant).2 := by
  obtain ⟨none, first⟩ | ⟨id, items, known, found, all⟩ := gathered.constants
  · rw [addConstant_first first]
    have pushed := push_spares g (constantsOf constant)
    refine ⟨fun kind id known => pushed.shapes id _ (gathered.listed kind id known) rfl,
      .inr ⟨g.nodes.size, [constant], rfl, ?_, ?_⟩⟩
    · show ((g.push (constantsOf constant)).2.nodes[g.nodes.size]?).map Node.shape = _
      rw [push_nodes, Array.getElem?_push_size]
      rfl
    · rw [constantFacts_append, none, addFact, notType]
      exact .cons (recorded.later pushed.primitives) .nil
  · have here : (g.addConstant constant).2 = g.modifyShape id (Shape.addConstant · constant) := by
      rw [Graph.addConstant, constantsNode, known, modifyShape]
    rw [here]
    refine ⟨fun kind other listed => ?_, .inr ⟨id, if (constantFacts facts).any
      (fun other => other.name = fact.name) then items else items ++ [constant], known, ?_, ?_⟩⟩
    · rw [modifyShape_shape? unmoved, gathered.listed kind other listed]
      split_ifs
      · rfl
      · rfl
    · rw [modifyShape_shape? unmoved, if_pos rfl, found, Option.map_some, Shape.addConstant,
        any_name_eq all, recorded.name, ← apply_ite Shape.constants]
    · have same : List.Forall₂ (Recorded (g.modifyShape id (Shape.addConstant · constant)))
          (constantFacts facts) items := all.imp fun _ _ old => old.later fun _ _ known => known
      rw [constantFacts_append, addFact, notType, Bool.false_or]
      split_ifs
      · exact same
      · exact List.rel_append same (.cons (recorded.later fun _ _ known => known) .nil)

/-! ### Ingest of constants -/

theorem ok_of_run_bind {α β : Type} {m : Ingest α} {f : α → Ingest β} {s s' : State} {result : β}
    (ran : (m >>= f).run.run s = (.ok result, s')) :
    ∃ a s₁, m.run.run s = (.ok a, s₁) ∧ (f a).run.run s₁ = (.ok result, s') := by
  rw [ExceptT.run_bind, StateT.run_bind] at ran
  generalize m.run.run s = outcome at ran ⊢
  obtain ⟨first, s₁⟩ := outcome
  cases first with
  | error e => cases ran
  | ok a => exact ⟨a, s₁, rfl, ran⟩

theorem Sparing.spares {α : Type} {c : Context} {m : Ingest α} (sparing : Sparing c m)
    {s s' : State} {result : Except MissingIdentity α} (ran : m.run.run s = (result, s')) :
    Spares c s s' := by
  have spares := sparing s
  rwa [ran] at spares

theorem initializerValue_value {subject text : String} {comment note : Option String}
    {value : Value} {s s' : State}
    (ran : (initializerValue subject text comment).run.run s = (.ok (value, note), s')) :
    value = initialValue text := by
  rw [initializerValue] at ran
  rw [initialValue]
  cases evaluated : evaluate text with
  | ok v =>
    rw [evaluated] at ran
    cases ran
    rfl
  | error e =>
    rw [evaluated] at ran
    obtain ⟨_, s₁, -, rest⟩ := ok_of_run_bind ran
    cases comment <;> cases rest <;> rfl

/-- Exactly one constant is added for a declaration, after its type has been found. -/
theorem declareConstant_adds {c : Context} {enter : Nat → Ingest (Option NodeId)} {fact : Fact}
    {initializer : String} {declared : Option TypeExpr}
    (body : fact.body = .constant initializer declared) (harmless : ∀ type, Harmless c enter type)
    {s s' : State} (listed : s.graph.Listed) {id : NodeId}
    (ran : (declareConstant c enter fact initializer declared).run.run s = (.ok id, s')) :
    ∃ s₁ constant, Spares c s s₁ ∧ Recorded s₁.graph fact constant ∧
      s' = { s₁ with graph := (s₁.graph.addConstant constant).2 } := by
  obtain ⟨⟨value, comment⟩, s₁, first, ran⟩ := ok_of_run_bind ran
  obtain rfl := initializerValue_value first
  have spares₁ : Spares c s s₁ := (initializerValue_sparing _ _ _).spares first
  have inferred {s₂ : State} (spares : Spares c s s₂)
      (ran : (do withGraph (·.addConstant ⟨fact.name, ← inferUse (initialValue initializer),
        initialValue initializer, comment⟩)).run.run s₂ = (.ok id, s')) :
      ∃ s₁ constant, Spares c s s₁ ∧ Recorded s₁.graph fact constant ∧
        s' = { s₁ with graph := (s₁.graph.addConstant constant).2 } := by
    obtain ⟨use, s₃, found, infers⟩ :=
      inferUse_infers (initialValue initializer) s₂ (spares.graph.listed listed)
    rw [run_bind_ok found] at ran
    cases ran
    refine ⟨s₃, ⟨fact.name, use, initialValue initializer, comment⟩,
      spares.trans ⟨infers.graph, fun _ _ _ _ => by rw [infers.built]⟩, ⟨rfl, ?_⟩, rfl⟩
    intro other isBody
    rw [body] at isBody
    cases isBody
    dsimp only
    exact ⟨rfl, infers.isUse⟩
  cases declared with
  | none =>
    dsimp only at ran
    rw [pure_bind] at ran
    exact inferred spares₁ ran
  | some type =>
    obtain ⟨found, s₂, second, ran⟩ := ok_of_run_bind ran
    have spares₂ := spares₁.trans ((harmless type _ _).spares second)
    cases found with
    | none =>
      dsimp only at ran
      exact inferred spares₂ ran
    | some resolved =>
      cases ran
      refine ⟨s₂, ⟨fact.name, resolved.type, initialValue initializer, comment⟩, spares₂,
        ⟨rfl, fun other isBody => ?_⟩, rfl⟩
      rw [body] at isBody
      cases isBody

/-- What holds when the declarations before a place have been built: none of the constants from
there on has been. -/
structure Gathering (c : Context) (place : Nat) (s : State) : Prop where
  valid : Valid c s
  gathered : Gathered (c.facts.take place) s.graph
  unbuilt : ∀ later fact, place ≤ later → c.facts[later]? = some fact → fact.isType = false →
    s.built.get? later = none

theorem Gathered.ofType {facts : List Fact} {g : Graph} (gathered : Gathered facts g) {fact : Fact}
    (isType : fact.isType = true) : Gathered (facts ++ [fact]) g := by
  have same : constantFacts (facts ++ [fact]) = constantFacts facts := by
    rw [constantFacts_append, addFact, isType]
    rfl
  refine ⟨gathered.listed, ?_⟩
  rw [same]
  exact gathered.constants

theorem addConstant_redirects (g : Graph) (constant : Constant) :
    (g.addConstant constant).2.redirects = g.redirects := by
  rw [addConstant, constantsNode]
  cases g.constants <;> rfl

theorem Gathering.declaration {c : Context} {place : Nat} {s s' : State}
    (gathering : Gathering c place s) {fact : Fact} (there : c.facts[place]? = some fact)
    {found : Option NodeId}
    (ran : (declaration c c.facts.length [] place).run.run s = (.ok found, s')) :
    Gathering c (place + 1) s' := by
  have valid : Valid c s' := by
    have calm := declaration_calm c c.facts.length [] [] s place gathering.valid
    have valid := calm.1.valid gathering.valid
    rwa [ran] at valid
  have take : c.facts.take (place + 1) = c.facts.take place ++ [fact] := by
    rw [List.take_add_one, there]
    rfl
  cases isType : fact.isType with
  | true =>
    have spares := (declaration_sparing c.facts.length [] there isType).spares ran
    refine ⟨valid, ?_, fun later constant le found notType => ?_⟩
    · rw [take]
      exact (gathering.gathered.later spares.graph).ofType isType
    · rw [spares.built later constant found notType]
      exact gathering.unbuilt later constant (Nat.le_of_succ_le le) found notType
  | false =>
    -- No reference leads to a constant, so it has not been built before its turn.
    obtain ⟨level, length⟩ : ∃ level, c.facts.length = level + 1 :=
      Nat.exists_eq_add_one.mpr (Nat.zero_lt_of_lt (List.getElem?_eq_some_iff.mp there).1)
    have look : (built? place).run.run s = (.ok none, s) := by
      show (Except.ok ((s.built.get? place).map s.graph.resolve), s) = _
      rw [gathering.unbuilt place fact le_rfl there isType]
      rfl
    rw [length, Ingest.declaration, run_bind_ok look] at ran
    dsimp only at ran
    rw [if_neg (by simp), there] at ran
    obtain ⟨built, s₁, declares, ran⟩ := ok_of_run_bind ran
    cases body : fact.body with
    | type type =>
      rw [Fact.isType, body] at isType
      cases isType
    | constant initializer declared =>
      rw [declareFact, body] at declares
      obtain ⟨id, s₂, adds, done⟩ := ok_of_run_bind declares
      cases done
      obtain ⟨s₃, constant, spares, recorded, rfl⟩ := declareConstant_adds body
        (harmless_declaration level [place]) gathering.gathered.listed adds
      cases ran
      refine ⟨valid, ?_, fun later constant' le found notType => ?_⟩
      · have unmoved := valid.graph.redirects
        rw [take]
        exact (gathering.gathered.later spares.graph).addConstant
          ((addConstant_redirects _ _).symm.trans unmoved) isType recorded
      · refine (Table.get?_insert_of_ne _ _ (by omega)).trans ?_
        rw [spares.built later constant' found notType]
        exact gathering.unbuilt later constant' (Nat.le_of_succ_le le) found notType

theorem Gathering.loop {c : Context} {place count : Nat} (all : place + count = c.facts.length)
    {s s' : State} (gathering : Gathering c place s)
    (ran : (forIn (List.range' place count) PUnit.unit fun place _ => do
      discard (Ingest.declaration c c.facts.length [] place)
      return ForInStep.yield PUnit.unit).run.run s = (.ok ⟨⟩, s')) :
    Gathering c c.facts.length s' := by
  induction count generalizing place s with
  | zero =>
    cases ran
    rwa [← all]
  | succ count ih =>
    have lt : place < c.facts.length := by omega
    rw [List.range'_succ, List.forIn_cons] at ran
    obtain ⟨step, s₁, first, ran⟩ := ok_of_run_bind ran
    obtain ⟨_, s₂, entered, done⟩ := ok_of_run_bind first
    cases done
    rw [Functor.discard, map_const, Function.comp_apply, map_eq_pure_bind] at entered
    obtain ⟨found, s₃, built, done⟩ := ok_of_run_bind entered
    cases done
    exact ih (by omega) (gathering.declaration (List.getElem?_eq_getElem lt) built) ran

theorem ingestion_gathered {settings : Settings} {facts : List Fact} {s : State}
    (ran : ingestion settings facts = (.ok (), s)) : Gathered facts s.graph := by
  rw [ingestion, buildFacts, List.range_eq_range'] at ran
  obtain ⟨_, s₁, looped, done⟩ := ok_of_run_bind ran
  cases done
  have start : Gathering ⟨settings, facts⟩ 0 { graph := .empty } := by
    refine ⟨valid_empty _, ⟨fun _ _ known => ?_, .inl ⟨rfl, rfl⟩⟩, fun _ _ _ _ _ => rfl⟩
    cases known
  have gathered := (start.loop (Nat.zero_add _) looped).gathered
  rwa [List.take_length] at gathered

end Ingest

namespace Graph

/-! ### The node of the constants -/

def Shape.isConstants : Shape → Bool
  | .constants _ => true
  | _ => false

theorem Shape.isConstants_of_label {s t : Shape} (same : s.label = t.label) :
    s.isConstants = t.isConstants := by
  cases s <;> cases t <;> simp [label, isConstants] at same ⊢

theorem Shape.not_isConstants_of_isNamed {s : Shape} (named : s.isNamed = true) :
    s.isConstants = false := by
  cases s with
  | constants items => cases named
  | _ => rfl

/-- There is one node of constants at most, which is known as such. -/
def Sole (g : Graph) : Prop :=
  ∀ (id : NodeId) (node : Node), g.nodes[id]? = some node → node.shape.isConstants = true →
    g.constants = some id

theorem Step.sole {g g' : Graph} (step : Step g g') (sole : g.Sole) : g'.Sole := by
  have pushed {last : Node} (other : last.shape.isConstants = false) (id : NodeId) (node : Node)
      (found : (g.push last).2.nodes[id]? = some node) (constants : node.shape.isConstants = true) :
      g.constants = some id := by
    obtain ⟨-, rfl⟩ | old := node_of_push found
    · rw [other] at constants
      cases constants
    · exact sole id node old constants
  cases step with
  | note _ _ | enlist _ _ => exact sole
  | primitive kind => exact pushed rfl
  | append placed _ | base placed _ =>
    exact pushed (Shape.not_isConstants_of_isNamed placed.named)
  | constants first _ =>
    intro id node found constants
    obtain ⟨rfl, -⟩ | old := node_of_push found
    · rfl
    · have known := sole id node old constants
      rw [first] at known
      cases known
  | reshape _ reshapes =>
    intro id node found constants
    obtain ⟨before, there, rfl | rfl⟩ := node_of_modifyShape found
    · exact sole id _ there constants
    · refine sole id before there ?_
      rwa [Shape.isConstants_of_label (reshapes.label before.shape)] at constants

theorem Steps.sole {g : Graph} (steps : Steps empty g) : g.Sole := by
  induction steps with
  | refl =>
    intro _ _ found
    cases found
  | tail _ step ih => exact step.sole ih

theorem root_durable : Durable fun node => node.shape.isConstants = true → node.isRoot = true where
  primitive _ constants := by cases constants
  constants _ _ := rfl
  placed placed constants := by
    rw [Shape.not_isConstants_of_isNamed placed.named] at constants
    cases constants
  reshape {_ _ node} reshapes root constants := by
    rw [Shape.isConstants_of_label (reshapes.label node.shape)] at constants
    exact root constants

/-! ### Primitive types and constants in a consolidation -/

def Shape.primitive? : Shape → Option Primitive
  | .primitive kind => some kind
  | _ => none

theorem Shape.eq_of_primitive? {s : Shape} {kind : Primitive} (same : s.primitive? = some kind) :
    s = .primitive kind := by
  cases s with
  | primitive _ =>
    cases same
    rfl
  | _ => cases same

theorem primitive?_of_entries {hash : Hash} {d e : NodeId → String} {s t : Shape}
    (same : shapeEntries hash d s = shapeEntries hash e t) : s.primitive? = t.primitive? := by
  obtain ⟨label, rest⟩ := label_of_entries same
  have small : ∀ kind : Primitive, (bytes kind.label).length < 256 ^ 8 := by
    intro kind
    cases kind <;> decide +kernel
  cases s with
  | primitive kind =>
    cases t with
    | primitive kind' =>
      have entries : entry "name" kind.label ++ [] = entry "name" kind'.label ++ [] := by
        simpa [Shape.heading, Shape.generics, namesEntry, contentEntries] using rest
      have labels := (entry_append_inj (small kind) (small kind') entries).1
      have kinds := congrArg Primitive.ofLabel? labels
      rw [Primitive.ofLabel?_label, Primitive.ofLabel?_label] at kinds
      exact kinds
    | _ => simp [Shape.heading, Shape.label] at label
  | _ =>
    cases t with
    | primitive kind => simp [Shape.heading, Shape.label] at label
    | _ => rfl

section consolidate
variable {hash : Hash} {g : Graph} (sound : g.Sound)
  (free : ∀ h, Begins hash g h → Collisionless hash h.prepared)
include sound free

theorem consolidate_primitive {id : NodeId} (live : g.isLive id = true) {kind : Primitive}
    (found : g.shape? id = some (.primitive kind)) :
    (g.consolidate hash).2.shape? ((g.consolidate hash).2.resolve id) = some (.primitive kind) := by
  have shrinks := consolidate_shrinks hash sound
  have alive : (g.consolidate hash).2.isLive ((g.consolidate hash).2.resolve id) = true :=
    shrinks.sound.isLive_resolve (shrinks.size.symm ▸ ((isLive_iff g id).mp live).1)
  have kept (f : NodeId → NodeId) (s : Shape) : (s.mapNodes f).primitive? = s.primitive? := by
    cases s <;> rfl
  have same := @view_resolve hash _ Shape.primitive? (fun _ => True)
    (fun _ _ _ _ _ _ entries => primitive?_of_entries entries) kept g sound free
    (fun _ _ _ _ => trivial) id live
  rw [found, Option.map_some] at same
  obtain ⟨shape, there, isKind⟩ := Option.map_eq_some_iff.mp same.symm
  rw [consolidate_shape sound alive, there, Shape.eq_of_primitive? isKind]
  rfl

theorem consolidate_constants (sole : g.Sole) {id : NodeId} (live : g.isLive id = true)
    {items : List Constant} (found : g.shape? id = some (.constants items)) :
    (g.consolidate hash).2.resolve id = id := by
  have kept (f : NodeId → NodeId) (s : Shape) : (s.mapNodes f).isConstants = s.isConstants := by
    cases s <;> rfl
  have same := @view_resolve hash _ Shape.isConstants (fun _ => True)
    (fun _ _ _ _ _ _ entries => Shape.isConstants_of_label (label_of_entries entries).1) kept g
    sound free (fun _ _ _ _ => trivial) id live
  have only {id : NodeId} (isConstants : (g.shape? id).map Shape.isConstants = some true) :
      g.constants = some id := by
    obtain ⟨shape, there, isShape⟩ := Option.map_eq_some_iff.mp isConstants
    obtain ⟨node, isNode, rfl⟩ := Option.map_eq_some_iff.mp there
    exact sole id node isNode isShape
  have own : (g.shape? id).map Shape.isConstants = some true := by rw [found]; rfl
  have known := only own
  rw [only (same ▸ own), Option.some_inj] at known
  exact known

end consolidate

theorem prune_shape? (g : Graph) (id : NodeId) : g.prune.2.shape? id = g.shape? id :=
  (prune_quiet g).shape?_eq id

end Graph

namespace Code
open TypeLoom.Graph TypeLoom.Literal TypeLoom.Ingest

/-! ### Fields -/

theorem use_primitive {n : Naming} {id : NodeId} {kind : Primitive}
    (found : n.graph.shape? (n.graph.resolve id) = some (.primitive kind)) (depth : Nat) :
    n.use ⟨.node id, depth, []⟩ = (⟨kind, depth⟩ : Ranked).type := by
  obtain ⟨node, there, shape⟩ := Option.map_eq_some_iff.mp found
  have writes (inside : NodeId → (NodeWriter → TypeRef) → TypeRef) :
      nodeTypeWith n inside [] id [] = primitiveType kind := by
    rw [nodeTypeWith]
    simp only [there, shape]
  rw [Naming.use, NodeWriter.use, typeUse, typeUses, Naming.writer, Ranked.type]
  cases n.graph.nodes.size with
  | zero => rw [nodeType, writes]
  | succ level => rw [nodeType, writes]

theorem lowerConstants_field {n : Naming} {settings : Settings} {name : String}
    {items : List Constant} {place : Nat} {constant : Constant}
    (there : items[place]? = some constant) :
    ∃ own, (lowerConstants n settings name items).fields[place]? =
      some (lowerConstant n own constant) := by
  have lt := (List.getElem?_eq_some_iff.mp there).1
  let names := uniqueNames [] (items.map fun c => memberName settings name c.name)
  obtain ⟨own, named⟩ : ∃ own, names[place]? = some own := by
    refine ⟨_, List.getElem?_eq_getElem ?_⟩
    rwa [uniqueNames_length, List.length_map]
  have zipped : (names.zip items)[place]? = some (own, constant) :=
    List.getElem?_zip_eq_some.mpr ⟨named, there⟩
  refine ⟨own, ?_⟩
  rw [lowerConstants, List.getElem?_map, zipped]
  rfl

theorem lowerFile_constants {g : Graph} {settings : Settings} {id : NodeId} {ids : List NodeId}
    (live : g.isLive id = true) {items : List Constant}
    (found : g.shape? id = some (.constants items)) (nonempty : items ≠ [])
    (retained : g.retained = some ids) (reached : id ∈ ids) :
    ∃ name, .constants (lowerConstants (Naming.of g settings) settings name items) ∈
      (lowerFile g settings).declarations := by
  obtain ⟨node, isNode, shape⟩ := Option.map_eq_some_iff.mp found
  have isRetained : g.isRetained id = true := by
    rw [Graph.isRetained, retained, resolve_of_isLive live]
    simpa using reached
  have isDeclared : node.isDeclared = true := by
    rw [Node.isDeclared, shape]
    simpa using nonempty
  have declared := mem_declaredNodes.mpr
    ⟨Graph.mem_retainedNodes.mpr ⟨⟨live, isNode⟩, isRetained⟩, isDeclared⟩
  obtain ⟨name, named⟩ := Naming.exists_name settings declared
  obtain ⟨decl, inside, lowered, -⟩ := lowerFile_declaration declared named
  rw [lowerDeclaration, shape, Option.some_inj] at lowered
  exact ⟨name, lowered ▸ inside⟩

section outcome
variable {hash : Hash} {g : Graph} (intact : g.Intact)
  (free : ∀ h, Begins hash g h → Collisionless hash h.prepared)
include intact free

theorem use_consolidated (listed : g.Listed) {n : Naming}
    (outcome : n.graph = (g.consolidate hash).2.prune.2) {r : Ranked} {u : TypeUse}
    (isUse : IsUse g r u) : n.use (u.mapNodes (g.consolidate hash).2.resolve) = r.type := by
  obtain ⟨id, known, rfl⟩ := isUse
  have found := listed _ _ known
  obtain ⟨node, isNode, -⟩ := Option.map_eq_some_iff.mp found
  have live := (intact.isLive_iff_lt id).mpr (Array.getElem?_eq_some_iff.mp isNode).1
  have sound := (consolidate_keeps hash g).sound intact.sound
  have resolved : n.graph.resolve ((g.consolidate hash).2.resolve id) =
      (g.consolidate hash).2.resolve id := by
    rw [outcome, (prune_quiet _).resolve_eq, sound.resolve_resolve]
  apply use_primitive
  rw [resolved, outcome, prune_shape?]
  exact consolidate_primitive intact.sound free live found

theorem lowerFile_consolidated (steps : Steps empty g) {g' : Graph}
    (outcome : g' = (g.consolidate hash).2.prune.2) (settings : Settings) {id : NodeId}
    {items : List Constant} (found : g.shape? id = some (.constants items))
    (nonempty : items ≠ []) :
    ∃ name, .constants (lowerConstants (Naming.of g' settings) settings name
        (items.map fun c => { c with type := c.type.mapNodes (g.consolidate hash).2.resolve })) ∈
      (lowerFile g' settings).declarations := by
  have keeps := consolidate_keeps hash g
  obtain ⟨node, isNode, isConstants⟩ := Option.map_eq_some_iff.mp found
  have inside := (Array.getElem?_eq_some_iff.mp isNode).1
  have live := (intact.isLive_iff_lt id).mpr inside
  have root : node.isRoot = true :=
    root_durable.steps steps node (Array.mem_of_getElem? isNode) (by rw [isConstants]; rfl)
  have alive := (keeps.sound intact.sound).isLive_resolve
    (inside.trans_le (keeps.grows intact.sound))
  obtain ⟨same, isSame, isRoot⟩ := consolidate_root hash intact.sound live isNode root
  rw [consolidate_constants intact.sound free steps.sole live found] at alive isSame
  obtain ⟨ids, retained, reached⟩ := prune_root alive isSame isRoot
  have shape := consolidate_shape intact.sound alive
  rw [found] at shape
  have isLive : g'.isLive id = true := by
    rw [outcome, (prune_quiet _).isLive_eq]
    exact alive
  have isShape : g'.shape? id = some ((Shape.constants items).mapNodes
      (g.consolidate hash).2.resolve) := by
    rw [outcome, prune_shape?]
    exact shape
  rw [← outcome] at retained
  exact lowerFile_constants isLive isShape (by simpa using nonempty) retained reached

end outcome

end Code

namespace Conversion
open TypeLoom.Graph TypeLoom.Literal TypeLoom.Ingest TypeLoom.Code

theorem ingestion_of_buildWith {hash : Hash} {settings : Settings} {facts : List Fact} {g : Graph}
    (built : buildWith hash settings facts = .ok g) :
    ingestion settings facts = (.ok (), (ingestion settings facts).2) := by
  rw [buildWith, ingest_eq] at built
  split at built
  · cases built
  · next ingested =>
    rw [← (Prod.mk.inj ingested).1]

theorem buildWith_constant_field {hash : Hash} {settings : Settings} {facts : List Fact} {g : Graph}
    (built : buildWith hash settings facts = .ok g)
    (free : ∀ h, Begins hash (Graph.empty.ingest settings facts).2 h →
      Collisionless hash h.prepared)
    {place : Nat} {fact : Fact} {initializer : String}
    (listed : (constantFacts facts)[place]? = some fact)
    (body : fact.body = .constant initializer none) :
    ∃ decl field, .constants decl ∈ (lowerFile g settings).declarations ∧
      decl.fields[place]? = some field ∧ field.type = (initialValue initializer).ranked.type ∧
      field.value = valueExpr true field.type (initialValue initializer) := by
  have steps := ingest_steps settings facts
  have intact := Steps.intact steps empty_intact
  have gathered := ingestion_gathered (ingestion_of_buildWith built)
  obtain ⟨none, -⟩ | ⟨id, items, -, found, all⟩ := gathered.constants
  · rw [none] at listed
    cases listed
  obtain ⟨length, recorded⟩ := List.forall₂_iff_get.mp all
  obtain ⟨lt, isFact⟩ := List.getElem?_eq_some_iff.mp listed
  have lt' : place < items.length := length ▸ lt
  obtain ⟨value, isUse⟩ :=
    (recorded place lt lt').inferred initializer (by rw [List.get_eq_getElem, isFact, body])
  have outcome := buildWith_eq_ok built
  obtain ⟨name, inside⟩ := lowerFile_consolidated intact free steps outcome settings found
    (List.ne_nil_of_length_pos (Nat.zero_lt_of_lt lt'))
  have type : (Naming.of g settings).use _ = _ :=
    use_consolidated intact free gathered.listed outcome isUse
  generalize ((Graph.empty.ingest settings facts).2.consolidate hash).2.resolve = f at inside type
  have there : (items.map fun c => { c with type := c.type.mapNodes f })[place]? =
      some { items[place] with type := items[place].type.mapNodes f } := by
    rw [List.getElem?_map, List.getElem?_eq_getElem lt']
    rfl
  obtain ⟨own, isField⟩ := lowerConstants_field there
  exact ⟨_, _, inside, isField, type, congrArg (valueExpr true _) value⟩

/-- A constant without a declared type becomes a field that has the type of its value. The value
fits it if and only if that is a type of objects, or no array of booleans or numbers in it has a
null and arrays are not nested too deeply. -/
theorem buildWith_constant_fits_iff {hash : Hash} {settings : Settings} {facts : List Fact}
    {g : Graph} (built : buildWith hash settings facts = .ok g)
    (free : ∀ h, Begins hash (Graph.empty.ingest settings facts).2 h →
      Collisionless hash h.prepared)
    {place : Nat} {fact : Fact} {initializer : String}
    (listed : (constantFacts facts)[place]? = some fact)
    (body : fact.body = .constant initializer none) :
    ∃ decl field, .constants decl ∈ (lowerFile g settings).declarations ∧
      decl.fields[place]? = some field ∧ field.type = (initialValue initializer).ranked.type ∧
      field.value = valueExpr true field.type (initialValue initializer) ∧
      (Fits field.type field.value ↔ (initialValue initializer).ranked.kind = .object ∨
        (initialValue initializer).gapless = true ∧
          (initialValue initializer).nesting ≤ TypeUse.maxDepth) := by
  obtain ⟨decl, field, inside, isField, type, value⟩ :=
    buildWith_constant_field built free listed body
  refine ⟨decl, field, inside, isField, type, value, ?_⟩
  rw [value, type]
  exact fits_ranked_iff _

theorem exists_buildWith {settings : Settings} {facts : List Fact} (hash : Hash)
    (ran : (ingestion settings facts).1.isOk = true) :
    ∃ g, buildWith hash settings facts = .ok g := by
  rw [buildWith, ingest_eq]
  cases outcome : (ingestion settings facts).1 with
  | error cause =>
    rw [outcome] at ran
    cases ran
  | ok => exact ⟨_, rfl⟩

/-- A constant whose name is taken between two others. -/
def tables : List Fact :=
  [{ name := "Label", body := .constant "['a', 1]" none },
    { name := "Label", body := .constant "true" none },
    { name := "Rows", body := .constant "[[1, 2], null, [3]]" none }]

theorem buildWith_constant_fits_iff_tables : ∃ g decl field,
    buildWith spelled {} tables = .ok g ∧ .constants decl ∈ (lowerFile g {}).declarations ∧
      decl.fields[1]? = some field ∧ field.type = .array (.array (.plain "double")) ∧
      Fits field.type field.value := by
  have ran : (ingestion {} tables).1.isOk = true := by decide +kernel
  have listed : (constantFacts tables)[1]? =
      some { name := "Rows", body := .constant "[[1, 2], null, [3]]" none } := rfl
  have ranked : (initialValue "[[1, 2], null, [3]]").ranked = ⟨.number, 2⟩ := by decide +kernel
  obtain ⟨g, built⟩ := exists_buildWith spelled ran
  obtain ⟨decl, field, inside, isField, type, -, fits⟩ := buildWith_constant_fits_iff built
    (fun h _ => collisionless_of_injective spelled_injective _) listed rfl
  refine ⟨g, decl, field, built, inside, isField, ?_, fits.mpr (.inr ?_)⟩
  · rw [type, ranked]
    rfl
  · decide +kernel

def single (initializer : String) : List Fact :=
  [{ name := "Rates", body := .constant initializer none }]

/-- A null beside numbers or booleans does not fit. -/
theorem constant_unfit_of_null :
    ["[1, null]", "[true, null]", "[[1], [2, null]]"].Forall fun initializer => ∃ g decl field,
      buildWith spelled {} (single initializer) = .ok g ∧
        .constants decl ∈ (lowerFile g {}).declarations ∧ decl.fields[0]? = some field ∧
        ¬ Fits field.type field.value := by
  have unfit (initializer : String) (ran : (ingestion {} (single initializer)).1.isOk = true)
      (kind : (initialValue initializer).ranked.kind ≠ .object)
      (gap : (initialValue initializer).gapless = false) : ∃ g decl field,
      buildWith spelled {} (single initializer) = .ok g ∧
        .constants decl ∈ (lowerFile g {}).declarations ∧ decl.fields[0]? = some field ∧
        ¬ Fits field.type field.value := by
    have listed : (constantFacts (single initializer))[0]? =
        some { name := "Rates", body := .constant initializer none } := rfl
    obtain ⟨g, built⟩ := exists_buildWith spelled ran
    obtain ⟨decl, field, inside, isField, type, value⟩ := buildWith_constant_field built
      (fun h _ => collisionless_of_injective spelled_injective _) listed rfl
    refine ⟨g, decl, field, built, inside, isField, ?_⟩
    rw [value, type, fits_ranked_iff, gap]
    simpa using kind
  exact ⟨unfit _ (by decide +kernel) (by decide +kernel) (by decide +kernel),
    unfit _ (by decide +kernel) (by decide +kernel) (by decide +kernel),
    unfit _ (by decide +kernel) (by decide +kernel) (by decide +kernel)⟩

end Conversion

end TypeLoom
